/-
  The decode loop of `adas_deserializer`'s `main` over a recording.

  `main` reads `rec.bin` whole and, while bytes remain, decodes one `Record` with
  `postcard::take_from_bytes` and prints it; after a `DataDescription` it decodes the payload as
  the first of `CameraImage`, `RadarScan`, `Scene`, `BrakeInstruction`, `Steering` whose
  `std::any::type_name` equals the record's `type_name`, or logs the type and skips
  `data_size` bytes when none does.  The recorder's `Record` and the message types are not in
  this repository: they enter as postcard decoders (`Reader`), `Record`'s as an enum.

  Three results.  The loop ENDS within as many passes as the input has bytes, whatever the bytes
  (`loop_ends_within_input_length`): every pass reads at least the record's variant index, and
  the payload step only ever drops bytes.  And on a WELL-FORMED recording, whose entries decode
  back to what was recorded, each pass reads one entry, the loop prints exactly the recorded
  records and payloads in order, and it finishes with nothing left
  (`wellFormed_recording_decodes`): the typed decode and the skip by `data_size` agree on every
  entry.  And a DAMAGED recording, well-formed up to some point, has every entry before that
  point printed before the loop ends (`damaged_recording_prints_entries`).
-/
import Feo.MiniAdas.Postcard

namespace Feo.MiniAdas

variable {Record Msg : Type}

/-- `feo::recording::recorder::DataDescriptionRecord`: the fields `main` reads. -/
structure DataDescriptionRecord where
  typeName : String
  dataSize : Nat
  deriving DecidableEq, Repr

/-- A message type `main` tries: `std::any::type_name::<T>()` and `take_from_bytes::<T>`, with
    its values in one type `Msg` of all five. -/
structure MessageType (Msg : Type) where
  typeName : String
  decoder : Decoder Msg

/-- What the loop needs of the recorder's `Record` and of the five message types. -/
structure Reader (Record Msg : Type) where
  /-- The decoders of `Record`'s variants, by variant index. -/
  recordVariants : Nat → Option (Decoder Record)
  /-- `if let Record::DataDescription(data_record) = record`. -/
  dataDescription : Record → Option DataDescriptionRecord
  cameraImage : MessageType Msg
  radarScan : MessageType Msg
  scene : MessageType Msg
  brakeInstruction : MessageType Msg
  steering : MessageType Msg

/-- `postcard::take_from_bytes::<Record>`. -/
def Reader.takeRecord (R : Reader Record Msg) : Decoder Record := takeEnum R.recordVariants

/-- The message types in the order of `main`'s `if let … else if let` chain. -/
def Reader.messageTypes (R : Reader Record Msg) : List (MessageType Msg) :=
  [R.cameraImage, R.radarScan, R.scene, R.brakeInstruction, R.steering]

/-- Why `main` panics. -/
inductive Panic where
  /-- `Result::expect(msg)` on an `Err`. -/
  | expect (msg : String)
  /-- `&bytes[index..]` with `index` past the slice's length `len`. -/
  | sliceStartIndex (index len : Nat)
  deriving DecidableEq, Repr

/-- `take_from_bytes::<T>(bytes).expect("failed to deserialize CameraImage")`: the message is
    the same for all five types. -/
def decodeAs (T : MessageType Msg) (bytes : Bytes) : Except Panic (Msg × Bytes) :=
  match T.decoder.take bytes with
  | some r => .ok r
  | none => .error (.expect "failed to deserialize CameraImage")

/-- `try_deserialization_as_a::<T>(header, bytes)`: `None` when the type names differ. -/
def tryDeserializationAsA (header : DataDescriptionRecord) (bytes : Bytes) (T : MessageType Msg) :
    Option (Except Panic (Msg × Bytes)) :=
  if header.typeName = T.typeName then some (decodeAs T bytes) else none

/-- A line `main` writes: `{record:#?}`, a decoded payload, or the `info!` of a skipped one. -/
inductive Printed (Record Msg : Type) where
  | record (r : Record)
  | message (v : Msg)
  | skipping (typeName : String)

/-- A stretch of `main`: what it writes, then the remaining bytes or the panic. -/
structure Pass (Record Msg : Type) where
  printed : List (Printed Record Msg)
  next : Except Panic Bytes

/-- The payload after a `DataDescription`: decoded as the first message type whose name
    matches, or skipped by `&remaining_bytes[data_record.data_size..]`. -/
def Reader.payload (R : Reader Record Msg) (header : DataDescriptionRecord) (bytes : Bytes) :
    Pass Record Msg :=
  match R.messageTypes.findSome? (tryDeserializationAsA header bytes) with
  | some (.ok (v, rest)) => ⟨[.message v], .ok rest⟩
  | some (.error p) => ⟨[], .error p⟩
  | none =>
      ⟨[.skipping header.typeName],
        if header.dataSize ≤ bytes.length then .ok (bytes.drop header.dataSize)
        else .error (.sliceStartIndex header.dataSize bytes.length)⟩

/-- One pass of the `while` body on the remaining bytes. -/
def Reader.pass (R : Reader Record Msg) (bytes : Bytes) : Pass Record Msg :=
  match R.takeRecord.take bytes with
  | none => ⟨[], .error (.expect "deserializing failed")⟩
  | some (record, rest) =>
      match R.dataDescription record with
      | none => ⟨[.record record], .ok rest⟩
      | some header =>
          let p := R.payload header rest
          ⟨.record record :: p.printed, p.next⟩

/-- How `main` ends: with `remaining_bytes` empty, or by a panic; `outOfFuel` when the passes
    allowed ran out first. -/
inductive Outcome (Record Msg : Type) where
  | finished (printed : List (Printed Record Msg))
  | panicked (p : Panic) (printed : List (Printed Record Msg))
  | outOfFuel

/-- What `main` printed before it finished or panicked. -/
def Outcome.printed : Outcome Record Msg → List (Printed Record Msg)
  | .finished printed | .panicked _ printed => printed
  | .outOfFuel => []

/-- The `while !remaining_bytes.is_empty()` loop, for at most `fuel` passes. -/
def Reader.loop (R : Reader Record Msg) :
    Nat → Bytes → List (Printed Record Msg) → Outcome Record Msg
  | _, [], printed => .finished printed
  | 0, _ :: _, _ => .outOfFuel
  | fuel + 1, b :: bs, printed =>
      let p := R.pass (b :: bs)
      match p.next with
      | .ok rest => R.loop fuel rest (printed ++ p.printed)
      | .error e => .panicked e (printed ++ p.printed)

/-! ## The loop ends -/

/-- The payload step only drops bytes. -/
theorem payload_suffix (R : Reader Record Msg) {header : DataDescriptionRecord} {bytes rest : Bytes}
    (h : (R.payload header bytes).next = .ok rest) : rest <:+ bytes := by
  unfold Reader.payload at h
  split at h
  · next v rest' hf =>
    cases h
    obtain ⟨T, -, hT⟩ := List.exists_of_findSome?_eq_some hf
    unfold tryDeserializationAsA at hT
    split at hT
    · simp only [Option.some.injEq, decodeAs] at hT
      split at hT
      · cases hT; exact T.decoder.suffix ‹_›
      · cases hT
    · cases hT
  · cases h
  · dsimp only at h
    split at h
    · cases h; exact List.drop_suffix _ _
    · cases h

/-- Every completed pass leaves fewer bytes than it found: it reads at least the record's
    variant index. -/
theorem pass_shortens (R : Reader Record Msg) {bytes rest : Bytes}
    (h : (R.pass bytes).next = .ok rest) : rest.length < bytes.length := by
  unfold Reader.pass at h
  split at h
  · cases h
  · next record rest' hr =>
    have hlt := takeEnum_shortens hr
    split at h
    · cases h; exact hlt
    · have := (payload_suffix R h).length_le
      omega

theorem loop_ne_outOfFuel (R : Reader Record Msg) :
    ∀ (fuel : Nat) (bytes : Bytes) (printed : List (Printed Record Msg)),
      bytes.length ≤ fuel → R.loop fuel bytes printed ≠ .outOfFuel
  | _, [], _, _ => by simp [Reader.loop]
  | 0, _ :: _, _, h => by simp at h
  | fuel + 1, b :: bs, printed, h => by
    simp only [Reader.loop]
    split
    · next rest hp =>
      have := pass_shortens R hp
      exact loop_ne_outOfFuel R fuel rest _ (by simp only [List.length_cons] at h this; omega)
    · nofun

/-- Passes that each complete take `bytes` down to an empty `remaining_bytes`. -/
inductive Reader.Consumes (R : Reader Record Msg) : Bytes → Prop where
  | empty : R.Consumes []
  | pass {bytes rest : Bytes} : (R.pass bytes).next = .ok rest → R.Consumes rest → R.Consumes bytes

/-- `main` finishes exactly when its passes, each completing, bring `remaining_bytes` to empty:
    the loop returns `finished` from no other bytes, and a pass that leaves bytes is followed by
    another pass.  With as many passes allowed as there are bytes, that is the whole story. -/
theorem loop_finished_iff (R : Reader Record Msg) :
    ∀ (fuel : Nat) (bytes : Bytes) (printed : List (Printed Record Msg)), bytes.length ≤ fuel →
      ((∃ out, R.loop fuel bytes printed = .finished out) ↔ R.Consumes bytes)
  | 0, [], printed, _ => ⟨fun _ => .empty, fun _ => ⟨printed, rfl⟩⟩
  | _ + 1, [], printed, _ => ⟨fun _ => .empty, fun _ => ⟨printed, rfl⟩⟩
  | 0, _ :: _, _, h => by simp at h
  | fuel + 1, b :: bs, printed, h => by
    simp only [Reader.loop]
    split
    · next rest hp =>
      have hlen : rest.length ≤ fuel := by
        have := pass_shortens R hp
        simp only [List.length_cons] at h this
        omega
      rw [loop_finished_iff R fuel rest _ hlen]
      refine ⟨.pass hp, fun hc => ?_⟩
      cases hc with
      | pass hp' hc' =>
        rw [hp, Except.ok.injEq] at hp'
        exact hp' ▸ hc'
    · next e hp =>
      refine ⟨fun ⟨_, h⟩ => (nomatch h), fun hc => ?_⟩
      cases hc with
      | pass hp' _ => rw [hp] at hp'; cases hp'

/-- **The decode loop ends.**  Whatever the bytes of `rec.bin`, every completed pass leaves
    fewer bytes than it found, so within as many passes as the input has bytes `main` either
    finishes, which it does exactly when its passes bring `remaining_bytes` to empty
    (`loop_finished_iff`), or panics. -/
theorem loop_ends_within_input_length (R : Reader Record Msg) (bytes : Bytes) :
    (∀ b rest, (R.pass b).next = .ok rest → rest.length < b.length) ∧
      R.loop bytes.length bytes [] ≠ .outOfFuel :=
  ⟨fun _ _ => pass_shortens R, loop_ne_outOfFuel R _ bytes [] le_rfl⟩

/-! ## A well-formed recording decodes entry by entry -/

/-- The first message type `main` tries whose name is `typeName`. -/
def Reader.knownType (R : Reader Record Msg) (typeName : String) : Option (MessageType Msg) :=
  R.messageTypes.find? fun T => typeName = T.typeName

/-- The chain of `try_deserialization_as_a` calls decodes as the first type whose name
    matches. -/
theorem findSome?_tryDeserializationAsA (header : DataDescriptionRecord) (bytes : Bytes) :
    ∀ Ts : List (MessageType Msg), Ts.findSome? (tryDeserializationAsA header bytes) =
      (Ts.find? fun T => header.typeName = T.typeName).map (decodeAs · bytes)
  | [] => rfl
  | T :: Ts => by
    by_cases h : header.typeName = T.typeName <;>
      simp [List.findSome?, List.find?, tryDeserializationAsA, h,
        findSome?_tryDeserializationAsA header bytes Ts]

theorem Reader.findSome?_messageTypes (R : Reader Record Msg) (header : DataDescriptionRecord)
    (bytes : Bytes) : R.messageTypes.findSome? (tryDeserializationAsA header bytes) =
      (R.knownType header.typeName).map (decodeAs · bytes) :=
  findSome?_tryDeserializationAsA header bytes _

/-- One entry of a recording. -/
structure Entry (Record Msg : Type) where
  record : Record
  /-- The bytes of `record`. -/
  recordBytes : Bytes
  /-- The bytes after `record`: `data_size` of them after a `DataDescription`, none after
      another record. -/
  payload : Bytes
  /-- The payload's value, when `main` knows its type. -/
  value : Option Msg

/-- The entry's bytes in the recording. -/
def Entry.bytes (e : Entry Record Msg) : Bytes := e.recordBytes ++ e.payload

/-- What `main` should write for the entry. -/
def Entry.printed (R : Reader Record Msg) (e : Entry Record Msg) : List (Printed Record Msg) :=
  .record e.record ::
    match R.dataDescription e.record, e.value with
    | some _, some v => [.message v]
    | some header, none => [.skipping header.typeName]
    | none, _ => []

/-- The entry decodes back to what was recorded: `record`'s bytes decode to `record` whatever
    follows them, and after a `DataDescription` come exactly `data_size` bytes, which decode to
    `value` whatever follows them when `main` knows the type. -/
def Entry.WellFormed (R : Reader Record Msg) (e : Entry Record Msg) : Prop :=
  (∀ rest, R.takeRecord.take (e.recordBytes ++ rest) = some (e.record, rest)) ∧
    match R.dataDescription e.record with
    | none => e.payload = [] ∧ e.value = none
    | some header =>
        e.payload.length = header.dataSize ∧
          match R.knownType header.typeName with
          | some T => ∃ v, e.value = some v ∧
              ∀ rest, T.decoder.take (e.payload ++ rest) = some (v, rest)
          | none => e.value = none

variable {R : Reader Record Msg} {e : Entry Record Msg}

/-- A record's bytes are never empty: they hold at least its variant index. -/
theorem Entry.WellFormed.bytes_ne_nil (hw : e.WellFormed R) : e.bytes ≠ [] := by
  have := takeEnum_shortens (hw.1 [])
  intro h
  simp only [Entry.bytes, List.append_eq_nil] at h
  simp [h.1] at this

/-- On a well-formed entry the typed decode advances exactly as the skip by `data_size`
    would. -/
theorem Entry.WellFormed.payload_step (hw : e.WellFormed R) {header : DataDescriptionRecord}
    (hd : R.dataDescription e.record = some header) (rest : Bytes) :
    R.payload header (e.payload ++ rest) =
      ⟨(e.printed R).tail, .ok ((e.payload ++ rest).drop header.dataSize)⟩ := by
  obtain ⟨-, hp⟩ := hw
  simp only [hd] at hp
  obtain ⟨hlen, hk⟩ := hp
  have hdrop : (e.payload ++ rest).drop header.dataSize = rest := hlen ▸ List.drop_left _ _
  unfold Reader.payload
  rw [Reader.findSome?_messageTypes, hdrop]
  cases hT : R.knownType header.typeName with
  | none =>
    -- no type matches: skipped by `data_size`
    simp only [hT] at hk
    simp [Entry.printed, hd, hk, ← hlen]
  | some T =>
    -- the first matching type decodes exactly the payload
    simp only [hT] at hk
    obtain ⟨v, hv, hdec⟩ := hk
    simp [decodeAs, hdec, Entry.printed, hd, hv]

/-- One pass of the loop reads exactly one well-formed entry. -/
theorem Entry.WellFormed.pass (hw : e.WellFormed R) (rest : Bytes) :
    R.pass (e.bytes ++ rest) = ⟨e.printed R, .ok rest⟩ := by
  unfold Reader.pass
  rw [Entry.bytes, List.append_assoc, hw.1]
  dsimp only
  cases hd : R.dataDescription e.record with
  | none =>
    have hp := hw.2
    simp only [hd] at hp
    simp [hp.1, Entry.printed, hd]
  | some header =>
    have hdrop : (e.payload ++ rest).drop header.dataSize = rest := by
      have hp := hw.2
      simp only [hd] at hp
      exact hp.1 ▸ List.drop_left _ _
    simp only [hw.payload_step hd, hdrop, Entry.printed, hd]
    cases e.value <;> rfl

/-- The loop reads well-formed entries one pass each, whatever follows them. -/
theorem loop_entries {es : List (Entry Record Msg)} (hw : ∀ e ∈ es, e.WellFormed R)
    (fuel : Nat) (rest : Bytes) (printed : List (Printed Record Msg)) :
    R.loop (es.length + fuel) (es.flatMap Entry.bytes ++ rest) printed =
      R.loop fuel rest (printed ++ es.flatMap (Entry.printed R)) := by
  induction es generalizing printed with
  | nil => simp
  | cons e es ih =>
    have he := hw e (List.mem_cons_self _ _)
    obtain ⟨b, bs, hb⟩ := List.exists_cons_of_ne_nil (List.append_ne_nil_of_left_ne_nil
      he.bytes_ne_nil (es.flatMap Entry.bytes ++ rest))
    rw [List.flatMap_cons, List.append_assoc, List.length_cons, Nat.add_right_comm, hb,
      Reader.loop]
    simp only [← hb, he.pass]
    rw [ih (fun e he' => hw e (List.mem_cons_of_mem _ he')), List.append_assoc, List.flatMap_cons]

/-- **A well-formed recording decodes entry by entry.**  When every entry decodes back to what
    was recorded, each pass of the loop reads exactly one entry and writes its record and
    payload; on each `DataDescription` the typed decode leaves what the skip by `data_size`
    would; and the loop, run for as many passes as there are entries, finishes with nothing
    left, having written exactly the recorded records and payloads in order. -/
theorem wellFormed_recording_decodes (R : Reader Record Msg) (es : List (Entry Record Msg))
    (hw : ∀ e ∈ es, e.WellFormed R) :
    (∀ e ∈ es, ∀ rest, R.pass (e.bytes ++ rest) = ⟨e.printed R, .ok rest⟩) ∧
      (∀ e ∈ es, ∀ header, R.dataDescription e.record = some header → ∀ rest,
        (R.payload header (e.payload ++ rest)).next =
          .ok ((e.payload ++ rest).drop header.dataSize)) ∧
      R.loop es.length (es.flatMap Entry.bytes) [] = .finished (es.flatMap (Entry.printed R)) :=
  ⟨fun e he => (hw e he).pass, fun e he _ hd rest => by rw [(hw e he).payload_step hd rest],
    by simpa [Reader.loop] using loop_entries hw 0 [] []⟩

/-- A record type to run the reader on: a `DataDescription`, or another record. -/
inductive DemoRecord where
  | dataDescription (header : DataDescriptionRecord)
  | other

/-- A reader over `DemoRecord` and one-byte messages: variant `0` is `other`, variant `1` a
    `DataDescription` of a type-name index byte and a size byte. -/
def demoReader : Reader DemoRecord UInt8 where
  recordVariants
    | 0 => some (Decoder.pure .other)
    | 1 => some ((Decoder.u8.seq Decoder.u8).map fun r =>
        .dataDescription ⟨if r.1 = 0 then "CameraImage" else "Unknown", r.2.toNat⟩)
    | _ => none
  dataDescription
    | .dataDescription header => some header
    | .other => none
  cameraImage := ⟨"CameraImage", Decoder.u8⟩
  radarScan := ⟨"RadarScan", Decoder.u8⟩
  scene := ⟨"Scene", Decoder.u8⟩
  brakeInstruction := ⟨"BrakeInstruction", Decoder.u8⟩
  steering := ⟨"Steering", Decoder.u8⟩

/-- A camera image, a payload of a type `main` does not know, and another record. -/
def demoEntries : List (Entry DemoRecord UInt8) :=
  [⟨.dataDescription ⟨"CameraImage", 1⟩, [1, 0, 1], [42], some 42⟩,
   ⟨.dataDescription ⟨"Unknown", 2⟩, [1, 1, 2], [7, 8], none⟩,
   ⟨.other, [0], [], none⟩]

theorem wellFormed_recording_decodes_demo :
    (∀ e ∈ demoEntries, ∀ rest,
        demoReader.pass (e.bytes ++ rest) = ⟨e.printed demoReader, .ok rest⟩) ∧
      (∀ e ∈ demoEntries, ∀ header, demoReader.dataDescription e.record = some header → ∀ rest,
        (demoReader.payload header (e.payload ++ rest)).next =
          .ok ((e.payload ++ rest).drop header.dataSize)) ∧
      demoReader.loop demoEntries.length (demoEntries.flatMap Entry.bytes) [] =
        .finished (demoEntries.flatMap (Entry.printed demoReader)) :=
  wellFormed_recording_decodes demoReader demoEntries (by
    simp only [demoEntries, List.mem_cons, List.mem_singleton, List.not_mem_nil, or_false]
    rintro e (rfl | rfl | rfl)
    · exact ⟨fun _ => rfl, rfl, 42, rfl, fun _ => rfl⟩
    · exact ⟨fun _ => rfl, rfl, rfl⟩
    · exact ⟨fun _ => rfl, rfl, rfl⟩)

/-! ## A damaged recording -/

/-- The loop only ever adds lines to what it has printed. -/
theorem loop_printed_extends (R : Reader Record Msg) :
    ∀ (fuel : Nat) (bytes : Bytes) (printed : List (Printed Record Msg)),
      R.loop fuel bytes printed ≠ .outOfFuel → printed <+: (R.loop fuel bytes printed).printed
  | _, [], _, _ => by simp [Reader.loop, Outcome.printed]
  | 0, _ :: _, _, h => absurd rfl h
  | fuel + 1, b :: bs, printed, h => by
    cases hp : (R.pass (b :: bs)).next with
    | ok rest =>
      simp only [Reader.loop, hp] at h ⊢
      exact (List.prefix_append _ _).trans (loop_printed_extends R fuel rest _ h)
    | error e =>
      simp only [Reader.loop, hp, Outcome.printed]
      exact List.prefix_append _ _

/-- **A damaged recording is printed up to the damage.**  When a recording begins with
    well-formed entries, whatever bytes follow them, `main`'s loop ends within as many passes
    as there are entries and bytes after them, and what it has printed when it finishes or
    panics begins with every one of those entries, in order. -/
theorem damaged_recording_prints_entries (R : Reader Record Msg) (es : List (Entry Record Msg))
    (hw : ∀ e ∈ es, e.WellFormed R) (rest : Bytes) :
    R.loop (es.length + rest.length) (es.flatMap Entry.bytes ++ rest) [] ≠ .outOfFuel ∧
      es.flatMap (Entry.printed R) <+:
        (R.loop (es.length + rest.length) (es.flatMap Entry.bytes ++ rest) []).printed := by
  rw [loop_entries hw, List.nil_append]
  have hend := loop_ne_outOfFuel R rest.length rest (es.flatMap (Entry.printed R)) le_rfl
  exact ⟨hend, loop_printed_extends R _ _ _ hend⟩

/-- The first two demo entries, then a `DataDescription` record cut short: both entries are
    printed before the loop stops. -/
theorem damaged_recording_prints_entries_cut :
    demoReader.loop ((demoEntries.take 2).length + [1, 0].length)
        ((demoEntries.take 2).flatMap Entry.bytes ++ [1, 0]) [] ≠ .outOfFuel ∧
      (demoEntries.take 2).flatMap (Entry.printed demoReader) <+:
        (demoReader.loop ((demoEntries.take 2).length + [1, 0].length)
          ((demoEntries.take 2).flatMap Entry.bytes ++ [1, 0]) []).printed :=
  damaged_recording_prints_entries demoReader (demoEntries.take 2) (by
    simp only [demoEntries, List.take, List.mem_cons, List.mem_singleton, List.not_mem_nil,
      or_false]
    rintro e (rfl | rfl)
    · exact ⟨fun _ => rfl, rfl, 42, rfl, fun _ => rfl⟩
    · exact ⟨fun _ => rfl, rfl, rfl⟩) [1, 0]

end Feo.MiniAdas
