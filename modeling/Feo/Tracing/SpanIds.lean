/-
  SPAN IDS: `new_span_id` hands out `1, 2, 3, …` in allocation order, across all threads.

  `NEXT_ID` is a process-wide `AtomicU64` starting at `1` and touched only by the
  `fetch_add(1, Relaxed)` of `new_span_id`; `new_span` returns the id it got whatever becomes of
  its `NewSpan` packet, also when the latch is clear or the channel closed (`newSpan_returns`).
  One invariant (`IdInv`) says it all: the `n`-th allocation got `n + 1`
  modulo `2^64`, the counter holds the next one, and each thread has been handed back, in order,
  every id it allocated except the one its `new_span` still holds.  Below the wrap (at most
  `2^64 - 1` allocations) the ids are therefore `1, …, n`: distinct, never `0`, and increasing
  along every thread (`span_ids_sequential`).
-/
import Feo.Tracing.Steps

namespace Feo.Tracing

variable {Info : Type} {P : Protocol Info} {s s' : State Info}

/-- The id a thread's `new_span` has allocated and not yet returned: the one it carries through
    `send`, or the `0` that `span::Id::from_u64` panicked on. -/
def Pc.held : Pc Info → Option UInt64
  | .send _ ret | .enqueue _ ret | .disable ret => ret
  | .panicked => some 0
  | .idle | .newSpan _ _ => none

@[simp] theorem Pc.held_idle : (Pc.idle : Pc Info).held = none := rfl
@[simp] theorem Pc.held_newSpan (name : String) (info : Info) : (Pc.newSpan name info).held = none :=
  rfl
@[simp] theorem Pc.held_send (p : TracePacket Info) (ret : Option UInt64) :
    (Pc.send p ret).held = ret := rfl
@[simp] theorem Pc.held_enqueue (p : TracePacket Info) (ret : Option UInt64) :
    (Pc.enqueue p ret).held = ret := rfl
@[simp] theorem Pc.held_disable (ret : Option UInt64) : (Pc.disable ret : Pc Info).held = ret := rfl
@[simp] theorem Pc.held_panicked : (Pc.panicked : Pc Info).held = some 0 := rfl

/-- The ids a ghost history records for thread `t`, in order. -/
def idsOf (t : Nat) (l : List (Nat × UInt64)) : List UInt64 :=
  (l.filter (fun p => p.1 == t)).map Prod.snd

@[simp] theorem idsOf_append (t : Nat) (l₁ l₂ : List (Nat × UInt64)) :
    idsOf t (l₁ ++ l₂) = idsOf t l₁ ++ idsOf t l₂ := by simp [idsOf]

@[simp] theorem idsOf_singleton (t t' : Nat) (id : UInt64) :
    idsOf t [(t', id)] = if t' = t then [id] else [] := by
  by_cases h : t' = t <;> simp [idsOf, h]

/-- The id of the `n`-th allocation, counting from `0`: `NEXT_ID` after `n` wrapping increments
    of its initial `1`. -/
def nthId (n : Nat) : UInt64 := UInt64.ofNat (n + 1)

theorem nthId_succ (n : Nat) : nthId n + 1 = nthId (n + 1) := by
  apply UInt64.eq_of_val_eq
  apply Fin.ext
  show ((n + 1) % 2 ^ 64 + 1 % 2 ^ 64) % 2 ^ 64 = (n + 1 + 1) % 2 ^ 64
  omega

/-- Below the wrap, the `n`-th id is the number `n + 1`. -/
theorem nthId_toNat {n : Nat} (h : n + 1 < UInt64.size) : (nthId n).toNat = n + 1 :=
  UInt64.toNat_ofNat_of_lt h

/-- The first `n` ids increase, as long as `n` stays below the wrap. -/
theorem nthIds_increasing {n : Nat} (h : n < UInt64.size) :
    ((List.range n).map nthId).Pairwise (· < ·) := by
  rw [List.pairwise_map]
  refine (List.pairwise_lt_range n).imp_of_mem fun ha hb hab => ?_
  rw [List.mem_range] at ha hb
  show (nthId _).toNat < (nthId _).toNat
  rw [nthId_toNat (by omega), nthId_toNat (by omega)]
  omega

/-! ## The invariant -/

/-- The invariant of the span ids. -/
structure IdInv (s : State Info) : Prop where
  sequential : s.allocated.map Prod.snd = (List.range s.allocated.length).map nthId
  next : s.nextId = nthId s.allocated.length
  owed : ∀ t, idsOf t s.returned ++ (s.threads t).held.toList = idsOf t s.allocated

theorem idInv_init : IdInv (init : State Info) := ⟨rfl, rfl, fun _ => rfl⟩

/-- A step that leaves the threads, the counter and the id history alone. -/
theorem IdInv.congr (h : IdInv s) (hth : s'.threads = s.threads) (hn : s'.nextId = s.nextId)
    (ha : s'.allocated = s.allocated) (hr : s'.returned = s.returned) : IdInv s' :=
  ⟨by rw [ha]; exact h.sequential, by rw [hn, ha]; exact h.next,
    by rw [hth, hr, ha]; exact h.owed⟩

/-- Thread `t` moves to a program counter holding the same id. -/
theorem IdInv.setPc (h : IdInv s) {t : Nat} {pc : Pc Info} (hp : pc.held = (s.threads t).held) :
    IdInv (s.setPc t pc) := by
  refine ⟨h.sequential, h.next, fun t' => ?_⟩
  by_cases ht : t' = t
  · subst ht; simpa [State.setPc, hp] using h.owed t'
  · simpa [State.setPc, ht] using h.owed t'

/-- Thread `t` returns the id it holds. -/
theorem IdInv.finish (h : IdInv s) {t : Nat} {ret : Option UInt64}
    (hp : (s.threads t).held = ret) : IdInv (s.finish t ret) := by
  refine ⟨h.sequential, h.next, fun t' => ?_⟩
  by_cases ht : t' = t
  · subst ht
    cases ret <;> simpa [State.finish, State.setPc, hp] using h.owed t'
  · cases ret <;> simpa [State.finish, State.setPc, ht, Ne.symm ht] using h.owed t'

theorem allocPc_held (name : String) (info : Info) : (allocPc P s name info).held = some s.nextId := by
  unfold allocPc
  split
  · next h => rw [h]; rfl
  · rfl

/-- `new_span` takes the counter's value and increments it. -/
theorem IdInv.alloc (h : IdInv s) {t : Nat} {name : String} {info : Info}
    (hp : s.threads t = .newSpan name info) : IdInv (allocSpan P s t name info) := by
  rw [allocSpan_eq]
  refine ⟨?_, ?_, fun t' => ?_⟩
  · simp [h.sequential, h.next, List.range_succ]
  · simp [h.next, nthId_succ]
  · by_cases ht : t' = t
    · subst ht; simpa [hp, allocPc_held] using congrArg (· ++ [s.nextId]) (h.owed t')
    · simpa [ht, Ne.symm ht] using h.owed t'

theorem IdInv.thread (h : IdInv s) {t : Nat} (hm : ThreadMove P s t s') : IdInv s' := by
  cases hm with
  | alloc hp => exact h.alloc hp
  | load hp | closed hp => exact h.setPc (by simp [hp])
  | skip hp => exact h.finish (by simp [hp])
  | sent hp | disable hp =>
    refine IdInv.finish ?_ (by simp [hp])
    exact h.congr rfl rfl rfl rfl

theorem callStart_held {t : Nat} (hi : s.threads t = .idle) (c : Call Info) (t' : Nat) :
    ((callStart P s t c).threads t').held = (s.threads t').held := by
  by_cases ht : t' = t
  · subst ht
    cases c <;> simp [callStart, Subscriber.newSpan, Subscriber.record, Subscriber.event,
      Subscriber.enter, Subscriber.exit, State.setPc, hi]
  · rw [callStart_threads_ne c ht]

theorem IdInv.step {a : Action Info} (h : IdInv s) (hs : step P s a = some s') : IdInv s' := by
  rcases step_cases hs with ⟨ns, rfl⟩ | ⟨t, c, -, hi, rfl⟩ | ⟨t, ht⟩ | hm
  · exact h.congr rfl rfl rfl rfl
  · exact ⟨by simpa using h.sequential, by simpa using h.next,
      fun t' => by simpa [callStart_held hi] using h.owed t'⟩
  · exact h.thread ht
  · have hw := hm.workerOnly
    exact h.congr hw.threads hw.nextId hw.allocated hw.returned

theorem idInv_reachable {allowed : State Info → Action Info → Prop}
    (hs : ReachableBy P allowed s) : IdInv s :=
  hs.invariant idInv_init fun h _ hst => h.step hst

/-- `new_span` returns the id it took whatever becomes of its packet: with the latch clear its
    `send` returns at once, and with the receiver dropped it stores `false` and returns. -/
theorem newSpan_returns {t : Nat} {p : TracePacket Info} {id : UInt64}
    (hp : s.threads t = .send p (some id)) :
    (s.enabled = false → ∃ s', run P s [.thread t] = some s' ∧ s'.threads t = .idle ∧
      s'.returned = s.returned ++ [(t, id)]) ∧
    (s.enabled = true → s.receiverAlive = false →
      ∃ s', run P s [.thread t, .thread t, .thread t] = some s' ∧ s'.threads t = .idle ∧
        s'.returned = s.returned ++ [(t, id)] ∧ s'.enabled = false) := by
  refine ⟨fun he => ⟨s.finish t (some id), by simp [run, step, threadStep_send_disabled hp he],
    by simp [State.finish, State.setPc], by simp [State.finish]⟩, fun he hr => ?_⟩
  -- the latch is loaded, `sender.send` fails, and `false` is stored
  have h₁ : threadStep P s t = some (s.setPc t (.enqueue p (some id))) := by
    simp [threadStep, hp, he]
  have h₂ := threadStep_closed (P := P) (State.setPc_self s t (.enqueue p (some id))) hr
  have h₃ := threadStep_disable (P := P)
    (State.setPc_self (s.setPc t (.enqueue p (some id))) t (.disable (some id)))
  refine ⟨{ (s.setPc t (.enqueue p (some id))).setPc t (.disable (some id)) with
      enabled := false }.finish t (some id),
    by simp only [run, step, h₁, h₂, h₃, Option.some_bind], ?_, ?_, rfl⟩ <;>
    simp [State.finish, State.setPc]

/-! ## The ids below the wrap -/

/-- **Span ids are `1, …, n` in allocation order.**  In every reachable state with at most
    `2^64 - 1` allocations (fewer than `UInt64::MAX + 1`), whatever the interleaving of the
    threads and the state of the pipeline: the `i`-th allocated id is the number `i + 1`; along
    each thread the ids increase; no two are equal and none is `0`; and each thread has been
    handed back, in order, every id it allocated but the one its `new_span` still holds, which
    its next steps hand back too, latch set or clear (`newSpan_returns`). -/
theorem span_ids_sequential (hs : Reachable P s) (hn : s.allocated.length < UInt64.size) :
    s.allocated.map Prod.snd = (List.range s.allocated.length).map nthId ∧
      (∀ i < s.allocated.length, (nthId i).toNat = i + 1) ∧
      (∀ t, (idsOf t s.allocated).Pairwise (· < ·)) ∧
      (s.allocated.map Prod.snd).Nodup ∧ 0 ∉ s.allocated.map Prod.snd ∧
      ∀ t, idsOf t s.returned ++ (s.threads t).held.toList = idsOf t s.allocated := by
  have h := idInv_reachable hs
  have hinc : (s.allocated.map Prod.snd).Pairwise (· < ·) := h.sequential ▸ nthIds_increasing hn
  refine ⟨h.sequential, fun i hi => nthId_toNat (by omega),
    fun t => hinc.sublist ((List.filter_sublist _).map _),
    hinc.imp fun hab he => by subst he; exact Nat.lt_irrefl _ hab, fun h0 => ?_, h.owed⟩
  rw [h.sequential, List.mem_map] at h0
  obtain ⟨i, hi, hi0⟩ := h0
  have : (nthId i).toNat = i + 1 := nthId_toNat (by rw [List.mem_range] at hi; omega)
  rw [hi0] at this
  exact absurd this (by simp)

/-- Two threads call `new_span`; thread `1` allocates first and returns, thread `0` still holds
    its id. -/
def twoSpansRun : List (Action Unit) :=
  [.call 0 (.newSpan "a" ()), .call 1 (.newSpan "b" ()), .thread 1, .thread 0, .thread 1, .thread 1]

theorem span_ids_sequential_two_threads :
    ∃ s, run demoProtocol init twoSpansRun = some s ∧
      s.allocated.map Prod.snd = (List.range s.allocated.length).map nthId ∧
      (∀ i < s.allocated.length, (nthId i).toNat = i + 1) ∧
      (∀ t, (idsOf t s.allocated).Pairwise (· < ·)) ∧
      (s.allocated.map Prod.snd).Nodup ∧ 0 ∉ s.allocated.map Prod.snd ∧
      ∀ t, idsOf t s.returned ++ (s.threads t).held.toList = idsOf t s.allocated :=
  ⟨_, rfl, span_ids_sequential (reachable_run (rfl : run demoProtocol init twoSpansRun = _))
    (by decide)⟩

end Feo.Tracing
