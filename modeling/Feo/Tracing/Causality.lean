/-
  CAUSALITY: no admitted packet names a span before the span's `NewSpan` packet.

  The tracing layer hands a span id to `record`, `enter` and `exit` only after the `new_span`
  that returned it has returned (`Contract`).  By then the `NewSpan` packet either went into the
  channel, or its `send` found the latch clear, or stored `false` in it; the latch never comes
  back, so a later `send` of a packet that names the span finds it clear too.  Hence in every
  state reachable under the contract, every admitted packet that names a span comes after that
  span's `NewSpan` (`spans_created_before_use`).

  `event` names no span at all.  `Subscriber` does not override `current_span`, whose default
  returns `Current::unknown()`, so `parent_span` is `None` whatever spans the thread has entered
  (`event_parent_ignores_entered_span`).
-/
import Feo.Tracing.Steps

namespace Feo.Tracing

variable {Info : Type} {P : Protocol Info} {s s' : State Info}

/-- The span a packet names. -/
def TraceData.refSpan : TraceData Info → Option UInt64
  | .record span | .enter span | .exit span => some span
  | .event parentSpan _ _ _ => parentSpan
  | .newSpan _ _ _ _ => none

/-- The span a packet creates. -/
def TraceData.newSpanId : TraceData Info → Option UInt64
  | .newSpan id _ _ _ => some id
  | _ => none

/-- The span id a façade method is called with. -/
def Call.span : Call Info → Option UInt64
  | .record span | .enter span | .exit span => some span
  | .newSpan _ _ | .event _ _ => none

/-- The tracing layer's contract: a façade method that takes a span id is called with one that
    a `new_span` has returned. -/
def Contract (s : State Info) : Action Info → Prop
  | .call _ c => ∀ id, c.span = some id → id ∈ s.returned.map Prod.snd
  | _ => True

/-- A `NewSpan` packet of span `id` is among `l`. -/
def Created (id : UInt64) (l : List (TracePacket Info)) : Prop :=
  ∃ q ∈ l, q.data.newSpanId = some id

theorem Created.mono {id : UInt64} {l l' : List (TracePacket Info)} (h : Created id l)
    (hl : l ⊆ l') : Created id l' :=
  let ⟨q, hq, hid⟩ := h; ⟨q, hl hq, hid⟩

/-! ## The invariant -/

/-- What a producer's packet may name in state `s`: a packet still before the latch names only
    returned spans, one past it only created spans; and the id a `new_span` carries is the one
    its packet creates. -/
def PcOk (s : State Info) : Pc Info → Prop
  | .send p ret =>
      (∀ id, p.data.refSpan = some id → id ∈ s.returned.map Prod.snd) ∧
        ∀ id, ret = some id → p.data.newSpanId = some id
  | .enqueue p ret =>
      (∀ id, p.data.refSpan = some id → Created id s.admitted) ∧
        ∀ id, ret = some id → p.data.newSpanId = some id
  | _ => True

/-- More returned spans and more admitted packets keep every program counter right. -/
theorem PcOk.mono {pc : Pc Info} (h : PcOk s pc) (hr : s.returned ⊆ s'.returned)
    (ha : s.admitted ⊆ s'.admitted) : PcOk s' pc := by
  cases pc with
  | send p ret => exact ⟨fun id hid => List.map_subset _ hr (h.1 id hid), h.2⟩
  | enqueue p ret => exact ⟨fun id hid => (h.1 id hid).mono ha, h.2⟩
  | _ => trivial

/-- Thread `t` moves to `pc`; the other threads keep theirs. -/
theorem pcOk_update {t : Nat} {pc : Pc Info} (hpc : PcOk s' pc)
    (hrest : ∀ t', PcOk s' (s.threads t')) : ∀ t', PcOk s' (Function.update s.threads t pc t') := by
  intro t'
  by_cases ht : t' = t
  · subst ht; simpa using hpc
  · simpa [ht] using hrest t'

/-- The invariant behind causality. -/
structure CausalInv (s : State Info) : Prop where
  created : ∀ id ∈ s.returned.map Prod.snd, Created id s.admitted ∨ s.enabled = false
  threads : ∀ t, PcOk s (s.threads t)
  ordered : ∀ l p, l ++ [p] <+: s.admitted → ∀ id, p.data.refSpan = some id → Created id l

theorem causalInv_init : CausalInv (init : State Info) :=
  ⟨fun _ h => (nomatch h), fun _ => trivial, fun _ _ h => by simpa using List.prefix_nil.mp h⟩

/-- A step that leaves the producers, the returned ids and the channel history alone, and at
    most clears the latch. -/
theorem CausalInv.congr (h : CausalInv s) (hth : s'.threads = s.threads)
    (hr : s'.returned = s.returned) (ha : s'.admitted = s.admitted)
    (he : s'.enabled = true → s.enabled = true) : CausalInv s' where
  created id hid := by
    rw [hr] at hid
    rcases h.created id hid with hc | hc
    · exact .inl (ha ▸ hc)
    · exact .inr (by cases h' : s'.enabled; rfl; simp [he h'] at hc)
  threads t := hth ▸ (h.threads t).mono (hr ▸ List.Subset.refl _) (ha ▸ List.Subset.refl _)
  ordered := ha ▸ h.ordered

/-- Thread `t` returns `ret` from a façade method. -/
theorem CausalInv.finish (h : CausalInv s) {t : Nat} {ret : Option UInt64}
    (hret : ∀ id, ret = some id → Created id s.admitted ∨ s.enabled = false) :
    CausalInv (s.finish t ret) where
  created id hid := by
    simp only [State.finish, List.map_append, List.mem_append] at hid
    rcases hid with hid | hid
    · exact h.created id hid
    · cases ret with
      | none => simp at hid
      | some r =>
        simp only [Option.map_some', Option.toList_some, List.map_cons, List.map_nil,
          List.mem_singleton] at hid
        subst hid; exact hret _ rfl
  threads := pcOk_update trivial fun t' =>
    (h.threads t').mono (List.subset_append_left _ _) (List.Subset.refl _)
  ordered := h.ordered

/-- Entering a façade method: the packet it builds names a span the contract allows, or none. -/
theorem CausalInv.call (h : CausalInv s) {t : Nat} {c : Call Info}
    (hc : ∀ id, c.span = some id → id ∈ s.returned.map Prod.snd) :
    CausalInv (callStart P s t c) := by
  cases c with
  | newSpan => exact ⟨h.created, pcOk_update trivial h.threads, h.ordered⟩
  | record | enter | exit =>
    refine ⟨h.created, pcOk_update ?_ h.threads, h.ordered⟩
    exact ⟨hc, fun _ h => (nomatch h)⟩
  | event =>
    -- `current_span()` is `Current::unknown()`: the event names no span
    refine ⟨h.created, pcOk_update ?_ h.threads, h.ordered⟩
    exact ⟨fun _ h => (by cases h), fun _ h => (nomatch h)⟩

theorem CausalInv.thread (h : CausalInv s) {t : Nat} (hm : ThreadMove P s t s') :
    CausalInv s' := by
  cases hm with
  | alloc hp =>
    -- the `NewSpan` packet names no span, and carries the id it creates
    rw [allocSpan_eq]
    refine ⟨h.created, pcOk_update ?_ h.threads, h.ordered⟩
    unfold allocPc; split
    · trivial
    · exact ⟨fun _ h => (nomatch h), fun _ hid => by cases hid; rfl⟩
  | load hp he =>
    -- past the latch: a returned span was created, since the latch is still set
    have hok := h.threads t
    rw [hp] at hok
    refine ⟨h.created, pcOk_update ⟨fun id hid => ?_, hok.2⟩ h.threads, h.ordered⟩
    simpa [he] using h.created id (hok.1 id hid)
  | skip hp he => exact h.finish fun _ _ => .inr he
  | closed hp => exact ⟨h.created, pcOk_update trivial h.threads, h.ordered⟩
  | @sent packet ret hp hr hq =>
    -- the packet goes in after every span it names, and creates the span it carries
    have hok := h.threads t
    rw [hp] at hok
    have ha : s.admitted ⊆ s.admitted ++ [packet] := List.subset_append_left _ _
    have hin : CausalInv
        { s with queue := s.queue ++ [packet], admitted := s.admitted ++ [packet] } := by
      refine ⟨fun id hid => ?_, fun t' => (h.threads t').mono (List.Subset.refl _) ha,
        fun l p hl id hid => ?_⟩
      · rcases h.created id hid with hc | hc
        · exact .inl (hc.mono ha)
        · exact .inr hc
      · rcases List.prefix_concat_iff.mp hl with he | hl
        · obtain ⟨rfl, hp'⟩ := List.append_inj' he rfl
          cases hp'
          exact hok.1 id hid
        · exact h.ordered l p hl id hid
    exact hin.finish fun id hid =>
      .inl ⟨packet, List.mem_append_right _ (List.mem_singleton_self _), hok.2 id hid⟩
  | disable hp =>
    refine CausalInv.finish ?_ fun _ _ => .inr rfl
    exact h.congr rfl rfl rfl fun h => (nomatch h)

theorem CausalInv.step {a : Action Info} (h : CausalInv s) (ha : Contract s a)
    (hs : step P s a = some s') : CausalInv s' := by
  rcases step_cases hs with ⟨ns, rfl⟩ | ⟨t, c, rfl, -, rfl⟩ | ⟨t, ht⟩ | hm
  · exact h.congr rfl rfl rfl id
  · exact h.call ha
  · exact h.thread ht
  · have hw := hm.workerOnly
    exact h.congr hw.threads hw.returned hw.admitted hw.enabled

theorem causalInv_reachable (hs : ReachableBy P Contract s) : CausalInv s :=
  hs.invariant causalInv_init fun h ha hst => h.step ha hst

/-- **Spans are created before they are named.**  In every state reachable under the tracing
    layer's contract, every admitted packet that names a span comes after a `NewSpan` of that
    span; so a span whose `NewSpan` was never admitted is named by no admitted packet. -/
theorem spans_created_before_use (hs : ReachableBy P Contract s) :
    (∀ l p, l ++ [p] <+: s.admitted → ∀ id, p.data.refSpan = some id → Created id l) ∧
      ∀ id, ¬ Created id s.admitted → ∀ p ∈ s.admitted, p.data.refSpan ≠ some id := by
  have h := causalInv_reachable hs
  refine ⟨h.ordered, fun id hn p hp hid => hn ?_⟩
  obtain ⟨l₁, l₂, he⟩ := List.append_of_mem hp
  exact (h.ordered l₁ p ⟨l₂, by simp [he]⟩ id hid).mono
    (by rw [he]; exact List.subset_append_left _ _)

/-- Thread `0` creates span `1` and returns it. -/
def createSpanRun : List (Action Unit) :=
  [.call 0 (.newSpan "s" ()), .thread 0, .thread 0, .thread 0]

/-- Thread `0` creates span `1`; thread `1` then records on it. -/
theorem spans_created_before_use_record :
    ∃ s, ReachableBy demoProtocol Contract s ∧ s.admitted.length = 2 ∧
      (∀ l p, l ++ [p] <+: s.admitted → ∀ id, p.data.refSpan = some id → Created id l) ∧
      ∀ id, ¬ Created id s.admitted → ∀ p ∈ s.admitted, p.data.refSpan ≠ some id := by
  have h₁ : ReachableBy demoProtocol Contract _ :=
    reachableBy_run .init (by simp [createSpanRun, Contract, Call.span])
      (rfl : run demoProtocol init createSpanRun = _)
  have h₂ := ReachableBy.step h₁
    (show Contract _ (Action.call 1 (.record 1)) from fun id hid => by cases hid; decide) rfl
  have h₃ : ReachableBy demoProtocol Contract _ :=
    reachableBy_run h₂ (by simp [Contract]) (rfl : run demoProtocol _ [.thread 1, .thread 1] = _)
  exact ⟨_, h₃, rfl, spans_created_before_use h₃⟩

/-! ## Events inside a span -/

/-- Thread `0` creates span `1`, enters it, and emits an event inside it. -/
def eventInSpanRun : List (Action Unit) :=
  createSpanRun ++
    [.call 0 (.enter 1), .thread 0, .thread 0, .call 0 (.event "e" ()), .thread 0, .thread 0]

/-- **An event inside a span has no parent.**  On `eventInSpanRun`, thread `0` has entered
    span `1` and not exited it, and the `Event` packet it sends names no parent. -/
theorem event_parent_ignores_entered_span :
    ∃ s, run demoProtocol init eventInSpanRun = some s ∧ s.entered 0 = [1] ∧
      ∃ name nameLen, s.admitted.getLast? = some ⟨0, true, .event none name nameLen ()⟩ :=
  ⟨_, rfl, rfl, _, _, rfl⟩

end Feo.Tracing
