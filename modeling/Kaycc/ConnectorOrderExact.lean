/-
  Kaycc/ConnectorOrderExact.lean
  ==============================
  **Every other order of `start` and `stop` may fail.**

  After a step that `startsInOrder` excludes, the loop can go on until an assertion
  of the Connector fails.  Either an attempt begins while the channel of the last
  one is still there, or a second `startInLoop` comes while an attempt is under way;
  the functors in front of it only stop the attempt, and then its retry timer comes
  before its `resetChannel`.
-/
import Kaycc.ConnectorOrder

namespace Kaycc

open Transition Transition.System

namespace Connector

variable {s t : Connector} {act : Action} {sockfd : Nat}

/-- Some run goes on to an assertion that fails. -/
def Fails (s : Connector) : Prop :=
  ∃ acts u act e, userSystem.Run s acts u ∧ userSystem.enabled u act ∧ u.step act = .error e

theorem Fails.now {e : Assertion} (hen : userSystem.enabled s act) (h : s.step act = .error e) :
    Fails s :=
  ⟨[], s, act, e, Run.nil s, hen, h⟩

theorem Fails.run {acts : List Action} (h : userSystem.Run s acts t) (hf : Fails t) : Fails s := by
  rcases hf with ⟨more, u, act, e, hrun, hen, herror⟩
  exact ⟨acts ++ more, u, act, e, h.append hrun, hen, herror⟩

theorem Fails.step (h : userSystem.Step s act t) (hf : Fails t) : Fails s :=
  hf.run (Run.single h)

/-! ### An attempt begins while the last channel is there -/

theorem fails_of_opening (hhanded : s.handed = false) (hpoint : s.point = .inConnect sockfd)
    (hchannel : s.channel ≠ none) : Fails s := by
  have hen : userSystem.enabled s (.connectReturned sockfd .EINPROGRESS) :=
    ⟨hpoint, hhanded, trivial⟩
  apply Fails.now hen
  simp only [Connector.step, connectReturned, connecting, check, if_neg hchannel]
  rfl

/-- The steps that call `startInLoop`. -/
theorem step_of_starts {base : Connector} (h : Starts s act base) :
    system.enabled s act ∧ s.step act = base.startInLoop := by
  cases h with
  | own hpoint => exact ⟨hpoint, rfl⟩
  | functor hpoint hfunctors =>
    refine ⟨⟨hpoint, by rw [hfunctors]; simp⟩, ?_⟩
    simp only [Connector.step, hfunctors]
    rfl
  | timer hpoint hi => exact ⟨⟨hpoint, hi⟩, rfl⟩

theorem alternates_of_starts {base : Connector} (h : Starts s act base)
    (hhanded : s.handed = false) : s.alternates act := by
  cases h with
  | own | functor | timer => exact ⟨hhanded, trivial⟩

/-- `startInLoop` while an attempt is under way, or after it has been connected. -/
theorem fails_of_starts {base : Connector} (h : Starts s act base) (hhanded : s.handed = false)
    (hstate : s.state ≠ .kDisconnected) : Fails s := by
  rcases step_of_starts h with ⟨hen, hstep⟩
  apply Fails.now ⟨hen, alternates_of_starts h hhanded⟩
  rw [hstep, startInLoop, check, if_neg (by rw [h.state]; exact hstate)]
  rfl

/-- It opens a socket. -/
theorem opens_of_starts {base : Connector} (h : Starts s act base) (hhanded : s.handed = false)
    (hstate : s.state = .kDisconnected) (hconnect : s.connect = true) :
    userSystem.Step s act base.openSocket := by
  rcases step_of_starts h with ⟨hen, hstep⟩
  refine ⟨⟨hen, alternates_of_starts h hhanded⟩, ?_⟩
  change s.step act = _
  rw [hstep, startInLoop, check_eq_ok (h.state.trans hstate), ok_bind,
    if_pos (h.connect.trans hconnect)]
  rfl

/-- … and then finds the channel. -/
theorem fails_of_openSocket {base : Connector} (h : Starts s act base) (hhanded : s.handed = false)
    (hchannel : s.channel ≠ none) : Fails base.openSocket := by
  rcases h.fields with ⟨hch, _, _, _, hh, _⟩
  have hpoint : base.openSocket.point = .inConnect base.opened := rfl
  apply fails_of_opening _ hpoint
  · change base.channel ≠ none
    rw [hch]
    exact hchannel
  · exact hh.trans hhanded

theorem fails_of_starts_channel {base : Connector} (h : Starts s act base)
    (hhanded : s.handed = false) (hstate : s.state = .kDisconnected) (hconnect : s.connect = true)
    (hchannel : s.channel ≠ none) : Fails s :=
  Fails.step (opens_of_starts h hhanded hstate hconnect) (fails_of_openSocket h hhanded hchannel)

/-- The channel of the last attempt is there while its `resetChannel` is queued. -/
theorem channel_ne_none (hi : Inv s) (hstate : s.state ≠ .kConnecting) (h : s.resets ≠ 0) :
    s.channel ≠ none := by
  rcases hi.resting hstate with ⟨-, hzero⟩ | ⟨sockfd, hchannel, -⟩
  · exact absurd hzero h
  · simp [hchannel]

/-! ### A second `startInLoop` comes -/

/-- The functors before a `startInLoop` are called. -/
theorem drain {pre rest : List Functor} (hi : Inv s) (hhanded : s.handed = false)
    (hpoint : s.point = .idle) (hstate : s.state ≠ .kConnecting)
    (hfunctors : s.functors = pre ++ rest) (hpre : .startInLoop ∉ pre) :
    ∃ acts u, userSystem.Run s acts u ∧ Inv u ∧ u.functors = rest ∧ u.state = s.state ∧
      u.connect = s.connect ∧ u.handed = false ∧ u.point = .idle ∧
      u.startsToCome = s.startsToCome := by
  induction pre generalizing s with
  | nil => exact ⟨[], s, Run.nil s, hi, hfunctors, rfl, rfl, hhanded, hpoint, rfl⟩
  | cons f pre ih =>
    have hf : f ≠ .startInLoop := fun heq => hpre (heq ▸ List.mem_cons_self)
    have hen : userSystem.enabled s .callFunctor :=
      ⟨⟨hpoint, by rw [hfunctors]; simp⟩, hhanded, trivial⟩
    have hcount : s.functors.count .startInLoop = (pre ++ rest).count .startInLoop := by
      rw [hfunctors, List.cons_append, List.count_cons_of_ne hf]
    have hstep : ∃ u, userSystem.Step s .callFunctor u ∧ u.functors = pre ++ rest ∧
        u.state = s.state ∧ u.connect = s.connect ∧ u.handed = s.handed ∧ u.point = s.point ∧
        u.startsToCome = s.startsToCome := by
      cases f with
      | startInLoop => exact absurd rfl hf
      | stopInLoop =>
        refine ⟨{ s with functors := pre ++ rest }, ⟨hen, ?_⟩, rfl, rfl, rfl, rfl, rfl, ?_⟩
        · change s.step .callFunctor = _
          simp only [Connector.step, hfunctors, List.cons_append]
          exact stopInLoop_resting (s := { s with functors := pre ++ rest }) hstate
        · simp only [startsToCome, hcount]
      | resetChannel =>
        refine ⟨{ s with functors := pre ++ rest, channel := none }, ⟨hen, ?_⟩, rfl, rfl, rfl, rfl,
          rfl, ?_⟩
        · change s.step .callFunctor = _
          simp only [Connector.step, hfunctors, List.cons_append, call, resetChannel]
          rcases hi.resting hstate with ⟨hchannel, -⟩ | ⟨sockfd, hchannel, -⟩
          · simp only [hchannel, pure_eq_ok]
          · simp only [hchannel]
            rfl
        · simp only [startsToCome, hcount]
    rcases hstep with ⟨u, hst, hu, hustate, huconnect, huhanded, hupoint, hucome⟩
    obtain ⟨acts, v, hrun, hv, hvf, hvstate, hvconnect, hvhanded, hvpoint, hvcome⟩ :=
      ih (hi.step hst.of_restrict) (huhanded.trans hhanded) (hupoint.trans hpoint)
        (by rw [hustate]; exact hstate) hu (fun hmem => hpre (List.mem_cons_of_mem _ hmem))
    exact ⟨_, v, (Run.single hst).append hrun, hv, hvf, hvstate.trans hustate,
      hvconnect.trans huconnect, hvhanded, hvpoint, hvcome.trans hucome⟩

/-- It is called after an attempt has been connected. -/
theorem fails_of_connected (hi : Inv s) (hhanded : s.handed = false) (hpoint : s.point = .idle)
    (hstate : s.state = .kConnected) (hmem : .startInLoop ∈ s.functors) : Fails s := by
  rcases List.eq_append_cons_of_mem hmem with ⟨pre, post, hfunctors, hpre⟩
  obtain ⟨acts, u, hrun, hu, huf, hustate, -, huhanded, hupoint, -⟩ :=
    drain hi hhanded hpoint (by simp [hstate]) hfunctors hpre
  apply Fails.run hrun
  apply fails_of_starts (Starts.functor hupoint huf) huhanded
  simp [hustate, hstate]

/-- It is called while an attempt is under way, or the attempt is stopped before. -/
theorem fails_of_connecting_functor (hi : Inv s) (hhanded : s.handed = false)
    (hpoint : s.point = .idle) (hstate : s.state = .kConnecting) (hconnect : s.connect = true)
    (hmem : .startInLoop ∈ s.functors) : Fails s := by
  rcases hi.connecting hstate with ⟨sockfd, hchannel, -, hzero⟩
  cases hfunctors : s.functors with
  | nil =>
    rw [hfunctors] at hmem
    cases hmem
  | cons f functors =>
    cases f with
    | startInLoop =>
      apply fails_of_starts (Starts.functor hpoint hfunctors) hhanded
      simp [hstate]
    | resetChannel =>
      rw [Connector.resets, hfunctors, List.count_cons_self] at hzero
      omega
    | stopInLoop =>
      -- the attempt is retried, and the retry timer fires before resetChannel is called
      have hst : userSystem.Step s .callFunctor
          (({ s with functors := functors }.dropped sockfd).retry sockfd) := by
        refine ⟨⟨⟨hpoint, by rw [hfunctors]; simp⟩, hhanded, trivial⟩, ?_⟩
        change s.step .callFunctor = _
        simp only [Connector.step, hfunctors]
        exact stopInLoop_connecting (s := { s with functors := functors }) hstate hchannel
      apply Fails.step hst
      rw [retry_eq]
      refine fails_of_starts_channel (Starts.timer (i := 0) hpoint ?_) hhanded rfl hconnect ?_
      · simp [dropped, hconnect]
      · simp [dropped, close]

/-- The push of a call that is to come. -/
theorem push_step {i : Nat} {f : Functor} (hhanded : s.handed = false)
    (hf : s.calling[i]? = some f) :
    userSystem.Step s (.queueInLoop i)
      { s with calling := s.calling.eraseIdx i, functors := s.functors ++ [f] } := by
  refine ⟨⟨(List.getElem?_eq_some_iff.mp hf).1, hhanded, trivial⟩, ?_⟩
  change s.step (.queueInLoop i) = _
  simp only [Connector.step, hf]

/-- A start that is to come, but neither from a timer nor from a functor, has still to be
    pushed by another thread. -/
theorem exists_calling (hpoint : s.point = .idle) (htimers : ¬ 0 < s.timers.length)
    (hmem : .startInLoop ∉ s.functors) (hcome : 0 < s.startsToCome) :
    ∃ i : Nat, s.calling[i]? = some .startInLoop := by
  apply List.mem_iff_getElem?.mp
  rw [← List.count_pos_iff]
  simp only [startsToCome, hpoint, Point.starting, List.count_eq_zero.mpr hmem] at hcome
  omega

/-- A `startInLoop` is to come while an attempt is under way. -/
theorem fails_of_connecting (hi : Inv s) (hhanded : s.handed = false) (hpoint : s.point = .idle)
    (hstate : s.state = .kConnecting) (hconnect : s.connect = true)
    (hcome : 0 < s.startsToCome) : Fails s := by
  by_cases htimers : 0 < s.timers.length
  · apply fails_of_starts (Starts.timer hpoint htimers) hhanded
    simp [hstate]
  · by_cases hmem : .startInLoop ∈ s.functors
    · exact fails_of_connecting_functor hi hhanded hpoint hstate hconnect hmem
    · obtain ⟨i, hf⟩ := exists_calling hpoint htimers hmem hcome
      have hst := push_step hhanded hf
      apply Fails.step hst
      apply fails_of_connecting_functor (hi.step hst.of_restrict) hhanded hpoint hstate hconnect
      simp

/-- One has begun, and another is to come. -/
theorem fails_of_opening_twice (hi : Inv s) (hhanded : s.handed = false)
    (hpoint : s.point = .inConnect sockfd) (hconnect : s.connect = true)
    (hcome : 1 < s.startsToCome) : Fails s := by
  by_cases hchannel : s.channel = none
  · have hst : userSystem.Step s (.connectReturned sockfd .EINPROGRESS)
        { s with point := .idle, state := .kConnecting,
                 channel := some (sockfd, Channel.writing) } := by
      refine ⟨⟨hpoint, hhanded, trivial⟩, ?_⟩
      change s.step (.connectReturned sockfd .EINPROGRESS) = _
      simp only [Connector.step, connectReturned, connecting, hchannel, check_eq_ok, ok_bind,
        Channel.new_enableWriting, pure_eq_ok]
    apply Fails.step hst
    apply fails_of_connecting (hi.step hst.of_restrict) hhanded rfl rfl hconnect
    simp only [startsToCome, hpoint, Point.starting] at hcome ⊢
    omega
  · exact fails_of_opening hhanded hpoint hchannel

theorem fails_of_starts_twice {base : Connector} (h : Starts s act base) (hi : Inv s)
    (hhanded : s.handed = false) (hstate : s.state = .kDisconnected) (hconnect : s.connect = true)
    (hcome : 1 < s.startsToCome) : Fails s := by
  have hst := opens_of_starts h hhanded hstate hconnect
  apply Fails.step hst
  have hbase := h.toCome
  have hpoint : base.openSocket.point = .inConnect base.opened := rfl
  refine fails_of_opening_twice (hi.step hst.of_restrict) ?_ hpoint ?_ ?_
  · exact h.fields.2.2.2.2.1.trans hhanded
  · exact h.connect.trans hconnect
  · simp only [startsToCome, openSocket, Point.starting] at hcome hbase ⊢
    omega

theorem fails_of_two_functor (hi : Inv s) (hhanded : s.handed = false) (hpoint : s.point = .idle)
    (hstate : s.state = .kDisconnected) (hconnect : s.connect = true)
    (hmem : .startInLoop ∈ s.functors) (hcome : 1 < s.startsToCome) : Fails s := by
  rcases List.eq_append_cons_of_mem hmem with ⟨pre, post, hfunctors, hpre⟩
  obtain ⟨acts, u, hrun, hu, huf, hustate, huconnect, huhanded, hupoint, hucome⟩ :=
    drain hi hhanded hpoint (by simp [hstate]) hfunctors hpre
  apply Fails.run hrun
  apply fails_of_starts_twice (Starts.functor hupoint huf) hu huhanded
  · exact hustate.trans hstate
  · exact huconnect.trans hconnect
  · rw [hucome]
    exact hcome

/-- Two are to come. -/
theorem fails_of_two (hi : Inv s) (hhanded : s.handed = false) (hstate : s.state = .kDisconnected)
    (hconnect : s.connect = true) (hcome : 1 < s.startsToCome) : Fails s := by
  cases hpoint : s.point with
  | startInLoop => exact fails_of_starts_twice (.own hpoint) hi hhanded hstate hconnect hcome
  | inConnect sockfd => exact fails_of_opening_twice hi hhanded hpoint hconnect hcome
  | newConnection sockfd =>
    exact absurd (hhanded.symm.trans (hi.newConnection sockfd hpoint)) (by simp)
  | idle =>
    by_cases htimers : 0 < s.timers.length
    · exact fails_of_starts_twice (.timer hpoint htimers) hi hhanded hstate hconnect hcome
    · by_cases hmem : .startInLoop ∈ s.functors
      · exact fails_of_two_functor hi hhanded hpoint hstate hconnect hmem hcome
      · obtain ⟨i, hf⟩ := exists_calling hpoint htimers hmem (Nat.lt_of_succ_lt hcome)
        have hst := push_step hhanded hf
        apply Fails.step hst
        apply fails_of_two_functor (hi.step hst.of_restrict) hhanded hpoint hstate hconnect
        · simp
        · have hcount := count_eraseIdx_add hf .startInLoop
          simp only [startsToCome, List.count_append] at hcome ⊢
          omega

theorem idle_of_starting (hi : Inv s) (hhanded : s.handed = false) (h : s.point.starting = 0) :
    s.point = .idle := by
  cases hpoint : s.point with
  | idle => rfl
  | startInLoop | inConnect =>
    rw [hpoint] at h
    cases h
  | newConnection sockfd =>
    exact absurd (hhanded.symm.trans (hi.newConnection sockfd hpoint)) (by simp)

/-- **The condition leaves out only what goes wrong**: after a step that it excludes, a run
    leads to an assertion that fails. -/
theorem startsInOrder_exact (h : (userSystem.restrict startsInOrder).Reachable s)
    (hst : userSystem.Step s act t) (hbad : ¬ s.startsInOrder act) : Fails t := by
  have hi := orderInv_of_reachable h
  have hhanded : s.handed = false := hst.condition.1
  have ht : Inv t := hi.toInv.step hst.of_restrict
  have heq : s.step act = .ok t := hst.2
  cases act with
  | start inLoop =>
    cases inLoop with
    | true =>
      have hpoint : s.point = .idle := hst.1.1 rfl
      obtain rfl := Except.ok.inj heq
      by_cases hstate : s.state = .kDisconnected
      · by_cases hcome : s.startsToCome = 0
        · -- the channel of the last attempt is there
          have hresets : s.resets ≠ 0 := fun hzero => hbad ⟨hstate, hcome, fun _ => hzero⟩
          have hchannel := channel_ne_none hi.toInv (by simp [hstate]) hresets
          exact fails_of_starts_channel (.own rfl) hhanded hstate rfl hchannel
        · refine fails_of_two ht hhanded hstate rfl ?_
          simp only [startsToCome, start, hpoint, Point.starting, if_true] at hcome ⊢
          omega
      · exact fails_of_starts (.own rfl) hhanded hstate
    | false =>
      obtain rfl := Except.ok.inj heq
      have hmore : (s.start false).startsToCome = s.startsToCome + 1 := by
        simp only [startsToCome, start, Bool.false_eq_true, if_false, List.count_append,
          List.count_singleton_self]
        omega
      by_cases hstate : s.state = .kDisconnected
      · have hcome : s.startsToCome ≠ 0 := fun hzero => hbad ⟨hstate, hzero, fun h => by cases h⟩
        exact fails_of_two ht hhanded hstate rfl (by omega)
      · have hzero := hi.busy hstate
        have hpoint : s.point = .idle :=
          idle_of_starting hi.toInv hhanded (by simp only [startsToCome] at hzero; omega)
        cases hs : s.state with
        | kDisconnected => exact absurd hs hstate
        | kConnecting => exact fails_of_connecting ht hhanded hpoint hs rfl (by omega)
        | kConnected =>
          have hmem : .startInLoop ∈ (s.start false).calling := by simp [start]
          rcases List.mem_iff_getElem?.mp hmem with ⟨i, hf⟩
          have hpush := push_step (s := s.start false) hhanded hf
          apply Fails.step hpush
          exact fails_of_connected (ht.step hpush.of_restrict) hhanded hpoint hs (by simp)
  | retryTimer i =>
    obtain ⟨hconnect, hresets⟩ : s.connect = true ∧ s.resets ≠ 0 := Classical.not_imp.mp hbad
    have hm := hi.toInv.move hst.of_restrict
    cases hm with
    | opens hstarts hstate _ =>
      have hchannel := channel_ne_none hi.toInv (by simp [hstate]) hresets
      exact fails_of_openSocket hstarts hhanded hchannel
    | declines _ _ hoff => exact absurd (hconnect.symm.trans hoff) (by simp)
  | _ => exact absurd trivial hbad

end Connector

end Kaycc
