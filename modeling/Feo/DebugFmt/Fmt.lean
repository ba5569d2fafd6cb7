/-
  `ScoreDebugDebug::<T, MAX_LENGTH>::fmt`: a `Debug` rendering through a fixed buffer.

  `fmt` renders `x` with `write!(&mut writer, "{:?}", x)` into a `Cursor` over a zeroed
  `[u8; MAX_LENGTH]`, `expect`s that to succeed, slices `buf[0..position]`, `expect`s the
  slice to be UTF-8, and hands the `&str` to `f.write_str`.  `Debug::fmt` writes its rendering
  as `&str` fragments, each through `io::Write::write_fmt`'s adapter into `write_all`; derived
  and standard implementations give up at the first error, and `DebugImpl` says which kind
  `x`'s is.

  The cursor copies fragments until the buffer is full; a fragment that does not fit is copied
  in part, and the next `write` writes nothing, so `write_all` fails with `WriteZero`.  Hence
  (`scoreDebugDebug_fmt`), when `x`'s `Debug` propagates errors, a rendering of at most
  `MAX_LENGTH` bytes reaches `write_str` EXACTLY, and a longer one panics with "failed to write
  Debug", also when its last char straddles the buffer's end; the slice is always in bounds,
  and the UTF-8 check never fails.  A `Debug` that IGNORES errors leaves the buffer holding the
  rendering's first `MAX_LENGTH` bytes and no error reported, so a char cut by the buffer's end
  makes `fmt` panic with "not a valid UTF-8 string" (`scoreDebugDebug_fmt_ignoring`).  Since
  `from_utf8` accepts exactly the bytes of strings, that panic happens EXACTLY when `MAX_LENGTH`
  falls inside a char of the rendering; on a char boundary `fmt` passes on the chars that fit
  (`scoreDebugDebug_fmt_char_boundary`).
-/
import Feo.DebugFmt.Utf8

namespace Feo.DebugFmt

/-- `std::io::Cursor<&mut [u8]>`: the slice it writes into, and its position. -/
structure Cursor where
  inner : Bytes
  pos : Nat

/-- `Cursor::write` on a slice (`slice_write`): copy what fits from the position on, advance
    by that count, and return it. -/
def Cursor.write (c : Cursor) (data : Bytes) : Cursor × Nat :=
  let pos := min c.pos c.inner.length
  let amt := min data.length (c.inner.length - pos)
  (⟨c.inner.take pos ++ data.take amt ++ c.inner.drop (pos + amt), c.pos + amt⟩, amt)

/-- The error `write_all` returns. -/
inductive IoError where
  /-- `ErrorKind::WriteZero`: a `write` wrote nothing. -/
  | writeZero
  deriving DecidableEq, Repr

/-- `Write::write_all`: write until nothing is left, failing with `WriteZero` at a write that
    wrote nothing (a cursor's writes never fail otherwise); the cursor keeps what the writes
    before it copied. -/
def Cursor.writeAll (c : Cursor) (data : Bytes) : Cursor × Except IoError Unit :=
  if data = [] then (c, .ok ())
  else if (c.write data).2 = 0 then (c, .error .writeZero)
  else (c.write data).1.writeAll (data.drop (c.write data).2)
termination_by data.length
decreasing_by
  simp only [List.length_drop]
  have := List.length_pos.mpr ‹data ≠ []›
  omega

/-- What `x`'s `Debug::fmt` does with its formatter: the `&str` fragments it writes, and whether
    it returns at the first error (with `?`, as derived and standard implementations do) or
    ignores the errors and returns `Ok`. -/
structure DebugImpl where
  fragments : List String
  propagatesErrors : Bool

/-- `format!("{:?}", x)`: the fragments, joined. -/
def DebugImpl.render (x : DebugImpl) : String := String.join x.fragments

/-- `io::Write::write_fmt(&mut writer, format_args!("{:?}", x))`.  Its `Adapter` passes each
    fragment to `write_all` and keeps the error of one that fails.  A `Debug::fmt` that
    propagates returns at the first error, and `write_fmt` returns the kept error; one that
    ignores errors writes every fragment and returns `Ok`, and so does `write_fmt`. -/
def writeFmt (propagate : Bool) (c : Cursor) : List String → Cursor × Except IoError Unit
  | [] => (c, .ok ())
  | s :: ss =>
      match c.writeAll (utf8 s) with
      | (c', .ok ()) => writeFmt propagate c' ss
      | (c', .error e) => if propagate then (c', .error e) else writeFmt propagate c' ss

/-- Why `fmt` panics. -/
inductive Panic where
  /-- `Result::expect(msg)` on an `Err`. -/
  | expect (msg : String)
  /-- `&buf[0..index]` with `index` past the slice's length `len`. -/
  | sliceEndIndex (index len : Nat)
  deriving DecidableEq, Repr

/-- `<ScoreDebugDebug<'_, T, MAX_LENGTH> as ScoreDebug>::fmt` on `x`: the `&str` it passes to
    `f.write_str`, or the panic. -/
def scoreDebugDebugFmt (maxLength : Nat) (x : DebugImpl) : Except Panic Str :=
  let w := writeFmt x.propagatesErrors ⟨List.replicate maxLength 0, 0⟩ x.fragments
  match w.2 with
  | .error _ => .error (.expect "failed to write Debug")
  | .ok () =>
      let len := w.1.pos
      if len ≤ w.1.inner.length then
        match fromUtf8 (w.1.inner.take len) with
        | some s => .ok s
        | none => .error (.expect "not a valid UTF-8 string")
      else .error (.sliceEndIndex len w.1.inner.length)

/-! ## The cursor -/

/-- A cursor at or past the end of its slice writes nothing. -/
theorem Cursor.write_full (c : Cursor) (h : c.inner.length ≤ c.pos) (data : Bytes) :
    (c.write data).2 = 0 := by
  simp [Cursor.write, Nat.min_eq_right h]

/-- `write_all` at the end of what is written so far, with `k` zeroed bytes left: it copies the
    first `k` bytes of `data`, and fails when that is not all of it. -/
theorem Cursor.writeAll_padded (w data : Bytes) (k : Nat) :
    Cursor.writeAll ⟨w ++ List.replicate k 0, w.length⟩ data =
      (⟨w ++ data.take k ++ List.replicate (k - data.length) 0, w.length + min k data.length⟩,
        if data.length ≤ k then .ok () else .error .writeZero) := by
  rw [Cursor.writeAll.eq_def]
  by_cases hd : data = []
  · subst hd; simp
  · have hlen := List.length_pos.mpr hd
    rw [if_neg hd]
    simp only [Cursor.write, List.length_append, List.length_replicate,
      Nat.min_eq_left (Nat.le_add_right _ _), Nat.add_sub_cancel_left]
    by_cases hk : k = 0
    · -- no room: the first write writes nothing
      subst hk
      rw [if_pos (by simp)]
      simp [Nat.not_le.mpr hlen]
    rw [if_neg (by omega), Cursor.writeAll.eq_def]
    simp only [List.take_left' rfl, List.drop_append, List.drop_replicate]
    by_cases hfit : data.length ≤ k
    · -- one write copies everything
      rw [if_pos (List.drop_eq_nil_of_le (by omega)), Nat.min_eq_left hfit, if_pos hfit,
        List.take_of_length_le hfit, List.take_length, Nat.min_eq_right hfit]
    · -- one write fills the buffer, the next writes nothing
      have hk' : k ≤ data.length := by omega
      have hfull : (w ++ data.take k ++ List.replicate (k - k) 0).length ≤ w.length + k := by
        simp only [List.length_append, List.length_take, List.length_replicate]; omega
      rw [Nat.min_eq_right hk', if_neg (by simp; omega), if_pos (Cursor.write_full ⟨_, _⟩ hfull _),
        if_neg hfit, Nat.min_eq_left hk', Nat.sub_self, Nat.sub_eq_zero_of_le hk']

/-- The fragments fill the zeroed rest of the buffer one after the other, as far as they fit,
    when they fit or when `fmt` ignores the errors. -/
theorem writeFmt_padded (p : Bool) (w : Bytes) (k : Nat) (ss : List String)
    (h : p = false ∨ (ss.flatMap utf8).length ≤ k) :
    writeFmt p ⟨w ++ List.replicate k 0, w.length⟩ ss =
      (⟨w ++ (ss.flatMap utf8).take k ++ List.replicate (k - (ss.flatMap utf8).length) 0,
        w.length + min k (ss.flatMap utf8).length⟩, .ok ()) := by
  induction ss generalizing w k with
  | nil => simp [writeFmt]
  | cons s ss ih =>
    simp only [List.flatMap_cons, List.length_append] at h ⊢
    have hw : (w ++ (utf8 s).take k).length = w.length + min k (utf8 s).length := by simp
    have hrest := ih (w ++ (utf8 s).take k) (k - (utf8 s).length) (h.imp_right (by omega))
    rw [hw] at hrest
    -- the first fragment is written, and `fmt` goes on with the rest
    have hfirst : writeFmt p ⟨w ++ List.replicate k 0, w.length⟩ (s :: ss) =
        writeFmt p ⟨w ++ (utf8 s).take k ++ List.replicate (k - (utf8 s).length) 0,
          w.length + min k (utf8 s).length⟩ ss := by
      simp only [writeFmt, Cursor.writeAll_padded]
      by_cases hs : (utf8 s).length ≤ k
      · rw [if_pos hs]
      · obtain rfl : p = false := h.resolve_right (by omega)
        rw [if_neg hs]
        rfl
    rw [hfirst, hrest, List.take_append_eq_append_take, Nat.sub_sub, List.append_assoc w]
    congr 2
    omega

/-- A `fmt` that propagates errors reports the first fragment that does not fit. -/
theorem writeFmt_overflow (w : Bytes) (k : Nat) (ss : List String)
    (h : k < (ss.flatMap utf8).length) :
    (writeFmt true ⟨w ++ List.replicate k 0, w.length⟩ ss).2 = .error .writeZero := by
  induction ss generalizing w k with
  | nil => simp at h
  | cons s ss ih =>
    simp only [List.flatMap_cons, List.length_append] at h
    simp only [writeFmt, Cursor.writeAll_padded]
    by_cases hs : (utf8 s).length ≤ k
    · rw [if_pos hs]
      dsimp only
      have := ih (w ++ (utf8 s).take k) (k - (utf8 s).length) (by omega)
      rwa [List.length_append, List.length_take] at this
    · rw [if_neg hs]
      rfl

theorem utf8_append (a b : String) : utf8 (a ++ b) = utf8 a ++ utf8 b := by
  obtain ⟨a⟩ := a; obtain ⟨b⟩ := b
  simp [utf8, String.append]

theorem utf8_render (x : DebugImpl) : utf8 x.render = x.fragments.flatMap utf8 := by
  suffices h : ∀ acc : String, utf8 (x.fragments.foldl (· ++ ·) acc) =
      utf8 acc ++ x.fragments.flatMap utf8 by
    simpa [utf8] using h ""
  induction x.fragments with
  | nil => simp
  | cons s ss ih => intro acc; simp [ih, utf8_append]

theorem length_utf8 (s : String) : (utf8 s).length = s.utf8ByteSize := by
  rw [← String.size_toUTF8]; rfl

/-- `fmt` when the fragments are written without an error reported: it passes on the bytes
    copied, as `from_utf8` sees them. -/
theorem scoreDebugDebugFmt_written (maxLength : Nat) (x : DebugImpl)
    (hw : writeFmt x.propagatesErrors ⟨List.replicate maxLength 0, 0⟩ x.fragments =
      (⟨(utf8 x.render).take maxLength ++ List.replicate (maxLength - (utf8 x.render).length) 0,
        min maxLength (utf8 x.render).length⟩, .ok ())) :
    scoreDebugDebugFmt maxLength x =
      match fromUtf8 ((utf8 x.render).take maxLength) with
      | some s => .ok s
      | none => .error (.expect "not a valid UTF-8 string") := by
  unfold scoreDebugDebugFmt
  rw [hw]
  dsimp only
  rw [if_pos (by simp), List.take_left' (by simp)]

/-! ## What `fmt` passes on -/

/-- **`ScoreDebugDebug` passes on the rendering, or panics at the buffer write.**  For every
    `MAX_LENGTH` and every `x` whose `Debug::fmt` propagates errors: when the rendering's UTF-8
    length is at most `MAX_LENGTH`, `fmt` passes exactly that string to `f.write_str`;
    otherwise it panics with "failed to write Debug".  So `buf[0..len]` is always in bounds and
    "not a valid UTF-8 string" never happens, whatever chars straddle the buffer's end. -/
theorem scoreDebugDebug_fmt (maxLength : Nat) (x : DebugImpl) (hx : x.propagatesErrors = true) :
    scoreDebugDebugFmt maxLength x =
      if x.render.utf8ByteSize ≤ maxLength then .ok (Str.ofString x.render)
      else .error (.expect "failed to write Debug") := by
  rw [← length_utf8]
  by_cases hfit : (utf8 x.render).length ≤ maxLength
  · have hw := writeFmt_padded x.propagatesErrors [] maxLength x.fragments
      (.inr (utf8_render x ▸ hfit))
    simp only [List.nil_append, List.length_nil, Nat.zero_add, ← utf8_render] at hw
    rw [scoreDebugDebugFmt_written maxLength x hw, List.take_of_length_le hfit, fromUtf8_utf8,
      if_pos hfit]
  · have hw := writeFmt_overflow [] maxLength x.fragments (utf8_render x ▸ Nat.lt_of_not_le hfit)
    simp only [List.nil_append, List.length_nil] at hw
    unfold scoreDebugDebugFmt
    rw [hx]
    dsimp only
    rw [hw, if_neg hfit]

/-- A rendering of two one-byte chars and a two-byte one, written in two fragments into a
    buffer that holds it exactly. -/
theorem scoreDebugDebug_fmt_exact :
    scoreDebugDebugFmt 4 ⟨["ab", "é"], true⟩ = .ok (Str.ofString "abé") :=
  (scoreDebugDebug_fmt 4 ⟨["ab", "é"], true⟩ rfl).trans (if_pos (by decide))

/-- **A `Debug` that ignores errors can make `fmt` panic on invalid UTF-8.**  When `x`'s
    `Debug::fmt` ignores the formatter's errors, `write_fmt` reports none, and `fmt` passes on
    the rendering's first `MAX_LENGTH` bytes when they are valid UTF-8, and otherwise panics
    with "not a valid UTF-8 string": the buffer's end has cut a char. -/
theorem scoreDebugDebug_fmt_ignoring (maxLength : Nat) (x : DebugImpl)
    (hx : x.propagatesErrors = false) :
    scoreDebugDebugFmt maxLength x =
      match fromUtf8 ((utf8 x.render).take maxLength) with
      | some s => .ok s
      | none => .error (.expect "not a valid UTF-8 string") := by
  have hw := writeFmt_padded x.propagatesErrors [] maxLength x.fragments (.inl hx)
  simp only [List.nil_append, List.length_nil, Nat.zero_add, ← utf8_render] at hw
  exact scoreDebugDebugFmt_written maxLength x hw

/-- "é" is two bytes; a one-byte buffer keeps its first, which is not UTF-8. -/
theorem scoreDebugDebug_fmt_ignoring_cut :
    scoreDebugDebugFmt 1 ⟨["é"], false⟩ = .error (.expect "not a valid UTF-8 string") := by
  have hcut : (utf8 (DebugImpl.render ⟨["é"], false⟩)).take 1 = [0xC3] := by decide
  rw [scoreDebugDebug_fmt_ignoring 1 _ rfl, hcut]
  simp [fromUtf8, validUtf8_cons_none (by decide : nextChar 0xC3 [] = none)]

/-- **Where an error-ignoring `Debug` makes `fmt` panic.**  When `x`'s `Debug::fmt` ignores the
    formatter's errors, `fmt` succeeds exactly when `MAX_LENGTH` falls on a char boundary of
    the rendering, or past its end: it then passes on the first chars of the rendering, all
    that fit.  When `MAX_LENGTH` falls inside a char, it panics with "not a valid UTF-8
    string". -/
theorem scoreDebugDebug_fmt_char_boundary (maxLength : Nat) (x : DebugImpl)
    (hx : x.propagatesErrors = false) :
    (∀ str, scoreDebugDebugFmt maxLength x = .ok str ↔
      ∃ k, (utf8 x.render).take maxLength = utf8 ⟨x.render.data.take k⟩ ∧
        str = Str.ofString ⟨x.render.data.take k⟩) ∧
    (scoreDebugDebugFmt maxLength x = .error (.expect "not a valid UTF-8 string") ↔
      ∀ k, (utf8 x.render).take maxLength ≠ utf8 ⟨x.render.data.take k⟩) := by
  have hw := writeFmt_padded x.propagatesErrors [] maxLength x.fragments (.inl hx)
  simp only [List.nil_append, List.length_nil, Nat.zero_add, ← utf8_render] at hw
  rw [scoreDebugDebugFmt_written maxLength x hw]
  refine ⟨fun str => ?_, ?_⟩
  · rw [← fromUtf8_take]
    cases fromUtf8 ((utf8 x.render).take maxLength) <;> simp
  · cases h : fromUtf8 ((utf8 x.render).take maxLength) with
    | none =>
      -- no cut at a boundary: the bytes would pass
      simp only [true_iff]
      intro k hk
      have := (fromUtf8_take x.render maxLength _).2 ⟨k, hk, rfl⟩
      rw [h] at this
      cases this
    | some str =>
      obtain ⟨k, hk, -⟩ := (fromUtf8_take x.render maxLength str).1 h
      simp only [reduceCtorEq, false_iff, not_forall, not_not]
      exact ⟨k, hk⟩

/-- "aé" in a two-byte buffer: the cut falls inside "é". -/
theorem scoreDebugDebug_fmt_char_boundary_cut :
    (∀ str, scoreDebugDebugFmt 2 ⟨["aé"], false⟩ = .ok str ↔
      ∃ k, (utf8 (DebugImpl.render ⟨["aé"], false⟩)).take 2 =
          utf8 ⟨(DebugImpl.render ⟨["aé"], false⟩).data.take k⟩ ∧
        str = Str.ofString ⟨(DebugImpl.render ⟨["aé"], false⟩).data.take k⟩) ∧
    (scoreDebugDebugFmt 2 ⟨["aé"], false⟩ = .error (.expect "not a valid UTF-8 string") ↔
      ∀ k, (utf8 (DebugImpl.render ⟨["aé"], false⟩)).take 2 ≠
        utf8 ⟨(DebugImpl.render ⟨["aé"], false⟩).data.take k⟩) :=
  scoreDebugDebug_fmt_char_boundary 2 ⟨["aé"], false⟩ rfl

end Feo.DebugFmt
