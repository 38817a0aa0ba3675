/-
  Kaycc/TcpConnectionUndisturbed.lean
  ===================================
  **What a step of a connection leaves to those who call it.**

  A `sendInLoop` functor is queued by the `send()` of another thread and by nothing
  else; a connection that is connected leaves that state, and shuts its socket down,
  when it is asked to, or else it is disconnected.  `Undisturbed` says so of two
  states; every step keeps it, once its own bookkeeping is set aside (`booked`): the
  functor that it takes from the batch, the call that it begins or finishes.  What
  is asked for, `shutdown`, `forceClose` and `forceCloseWithDelay`, is not `calm`.
-/
import Kaycc.TcpConnectionMoves

namespace Kaycc.TcpConnection

open Postcondition

variable {calm : Prop} {c c' c'' : TcpConnection} {r : ReadResult} {w : WriteResult}

/-- The payload of a functor, if it has one. -/
def Functor.payloads : Functor → List Bytes
  | .sendInLoop message => [message]
  | _ => []

/-- The payloads of a list of functors. -/
def sendsIn (fs : List Functor) : List Bytes := fs.flatMap Functor.payloads

@[simp] theorem sendsIn_append (fs gs : List Functor) :
    sendsIn (fs ++ gs) = sendsIn fs ++ sendsIn gs := List.flatMap_append

/-- Functors that the handling of events and functors queues by itself. -/
def Functor.isOwn : Functor → Prop
  | .connectDestroyed => True
  | .writeCompleteCallback => True
  | .highWaterMarkCallback _ => True
  | _ => False

/-- No `sendInLoop` is queued, no call is begun or finished, and the connection does not come up;
    and if it is `calm`, no functor of a call is queued, and a connection that is connected stays
    so without being shut down, or is disconnected. -/
structure Undisturbed (calm : Prop) (c c' : TcpConnection) : Prop where
  batch : c'.functors.batch = c.functors.batch
  pending : ∃ fs, c'.functors.pending = c.functors.pending ++ fs ∧ sendsIn fs = [] ∧
    (calm → ∀ f ∈ fs, f.isOwn)
  calling : c'.calling = c.calling
  log : ∃ es, c'.log = c.log ++ es ∧ .connectionCallback true ∉ es
  back : c'.state = .kConnected → c.state = .kConnected ∧
    (.connectionCallback false ∈ c'.log → .connectionCallback false ∈ c.log)
  connected : calm → c.state = .kConnected →
    c'.state = .kConnected ∨ .connectionCallback false ∈ c'.log
  shutdown : calm → c.state = .kConnected → .shutdownWrite ∈ c'.log →
    .shutdownWrite ∈ c.log ∨ .connectionCallback false ∈ c'.log

theorem Undisturbed.refl (c : TcpConnection) : Undisturbed calm c c :=
  ⟨rfl, ⟨[], (List.append_nil _).symm, rfl, fun _ f hf => by cases hf⟩, rfl,
    ⟨[], (List.append_nil _).symm, List.not_mem_nil⟩, fun h => ⟨h, id⟩, fun _ => .inl,
    fun _ _ => .inl⟩

theorem Undisturbed.log_prefix (h : Undisturbed calm c c') : c.log <+: c'.log := by
  obtain ⟨es, hlog, -⟩ := h.log
  exact ⟨es, hlog.symm⟩

theorem Undisturbed.trans (h₁ : Undisturbed calm c c') (h₂ : Undisturbed calm c' c'') :
    Undisturbed calm c c'' := by
  obtain ⟨fs₁, hp₁, hs₁, ho₁⟩ := h₁.pending
  obtain ⟨fs₂, hp₂, hs₂, ho₂⟩ := h₂.pending
  obtain ⟨es₁, hl₁, hup₁⟩ := h₁.log
  obtain ⟨es₂, hl₂, hup₂⟩ := h₂.log
  have hkept : c'.log ⊆ c''.log := h₂.log_prefix.subset
  refine ⟨h₂.batch.trans h₁.batch, ⟨fs₁ ++ fs₂, ?_, ?_, ?_⟩, h₂.calling.trans h₁.calling,
    ⟨es₁ ++ es₂, ?_, ?_⟩, ?_, ?_, ?_⟩
  · rw [hp₂, hp₁, List.append_assoc]
  · rw [sendsIn_append, hs₁, hs₂, List.append_nil]
  · intro hcalm f hf
    exact (List.mem_append.mp hf).elim (ho₁ hcalm f) (ho₂ hcalm f)
  · rw [hl₂, hl₁, List.append_assoc]
  · intro hmem
    exact (List.mem_append.mp hmem).elim hup₁ hup₂
  · intro hstate
    obtain ⟨hstate', hdown⟩ := h₂.back hstate
    obtain ⟨hstate'', hdown'⟩ := h₁.back hstate'
    exact ⟨hstate'', hdown' ∘ hdown⟩
  · intro hcalm hstate
    rcases h₁.connected hcalm hstate with hstate' | hdown
    · exact h₂.connected hcalm hstate'
    · exact .inr (hkept hdown)
  · intro hcalm hstate hshut
    rcases h₁.connected hcalm hstate with hstate' | hdown
    · rcases h₂.shutdown hcalm hstate' hshut with hshut' | hdown
      · exact (h₁.shutdown hcalm hstate hshut').imp_right fun hdown => hkept hdown
      · exact .inr hdown
    · exact .inr (hkept hdown)

/-- The payloads that wait in functors are the same. -/
theorem Undisturbed.waiting (h : Undisturbed calm c c') :
    sendsIn c'.functors.waiting = sendsIn c.functors.waiting := by
  obtain ⟨fs, hp, hs, -⟩ := h.pending
  rw [SwapQueue.waiting, SwapQueue.waiting, h.batch, hp, ← List.append_assoc, sendsIn_append, hs,
    List.append_nil]

/-! ### The ways to stay undisturbed -/

theorem undisturbed_of_eq (hf : c'.functors = c.functors) (hc : c'.calling = c.calling)
    (hs : c'.state = c.state) (hl : c'.log = c.log) : Undisturbed calm c c' :=
  ⟨by rw [hf], ⟨[], by rw [hf, List.append_nil], rfl, fun _ f hf => by cases hf⟩, hc,
    ⟨[], by rw [hl, List.append_nil], List.not_mem_nil⟩,
    fun h => ⟨hs.symm.trans h, fun hmem => hl ▸ hmem⟩, fun _ hstate => .inl (hs.trans hstate),
    fun _ _ hmem => .inl (hl ▸ hmem)⟩

/-- Events other than the shutdown of the socket and the change of the connection. -/
def Event.isPlain : Event → Prop
  | .shutdownWrite => False
  | .connectionCallback _ => False
  | _ => True

theorem undisturbed_record (e : Event) (he : e.isPlain) : Undisturbed calm c (c.record e) := by
  have hne {f : Event} (hf : ¬ f.isPlain) (hmem : f ∈ (c.record e).log) : f ∈ c.log := by
    rcases List.mem_append.mp hmem with hmem | hmem
    · exact hmem
    · rw [List.mem_singleton.mp hmem] at hf
      exact absurd he hf
  refine ⟨rfl, ⟨[], (List.append_nil _).symm, rfl, fun _ f hf => by cases hf⟩, rfl,
    ⟨[e], rfl, ?_⟩, fun h => ⟨h, hne id⟩, fun _ => .inl, fun _ _ hmem => .inl (hne id hmem)⟩
  intro hmem
  rw [← List.mem_singleton.mp hmem] at he
  exact he

theorem undisturbed_queueInLoop (f : Functor) (hf : f.payloads = []) (hown : calm → f.isOwn) :
    Undisturbed calm c (c.queueInLoop f) := by
  refine ⟨rfl, ⟨[f], rfl, ?_, ?_⟩, rfl, ⟨[], (List.append_nil _).symm, List.not_mem_nil⟩,
    fun h => ⟨h, id⟩, fun _ => .inl, fun _ _ => .inl⟩
  · simp [sendsIn, hf]
  · intro hcalm g hg
    rw [List.mem_singleton.mp hg]
    exact hown hcalm

/-- The connection is disconnected, and its callback called. -/
theorem undisturbed_disconnected (ch : Channel) (frame : Frame) : Undisturbed calm c
    (((c.setState .kDisconnected).setChannel ch).callConnectionCallback frame) := by
  have hdown : .connectionCallback false ∈ (((c.setState .kDisconnected).setChannel
      ch).callConnectionCallback frame).log := List.mem_append_right _ List.mem_cons_self
  refine ⟨rfl, ⟨[], (List.append_nil _).symm, rfl, fun _ f hf => by cases hf⟩, rfl,
    ⟨[.connectionCallback false], rfl, ?_⟩, fun h => (by cases h), fun _ _ => .inr hdown,
    fun _ _ _ => .inr hdown⟩
  intro hmem
  cases List.mem_singleton.mp hmem

/-- What is done on request is not calm. -/
theorem undisturbed_disconnecting (hcalm : ¬ calm) :
    Undisturbed calm c (c.setState .kDisconnecting) :=
  ⟨rfl, ⟨[], (List.append_nil _).symm, rfl, fun h => absurd h hcalm⟩, rfl,
    ⟨[], (List.append_nil _).symm, List.not_mem_nil⟩, fun h => (by cases h),
    fun h => absurd h hcalm, fun h => absurd h hcalm⟩

theorem shutdownInLoop_undisturbed (hcalm : calm → c.state ≠ .kConnected) :
    Undisturbed calm c c.shutdownInLoop := by
  unfold shutdownInLoop
  split
  · refine ⟨rfl, ⟨[], (List.append_nil _).symm, rfl, fun _ f hf => by cases hf⟩, rfl,
      ⟨[.shutdownWrite], rfl, ?_⟩, fun h => ⟨h, fun hmem => ?_⟩, fun _ => .inl,
      fun h hstate => absurd hstate (hcalm h)⟩
    · intro hmem
      cases List.mem_singleton.mp hmem
    · rcases List.mem_append.mp hmem with hmem | hmem
      · exact hmem
      · cases List.mem_singleton.mp hmem
  · exact Undisturbed.refl c

/-- What a function that leaves a connection undisturbed ends with. -/
abbrev StaysUndisturbed (calm : Prop) (c : TcpConnection) (x : Except Assertion TcpConnection) :
    Prop :=
  Ends (Undisturbed calm c) (fun _ => True) x

theorem StaysUndisturbed.bind {f : TcpConnection → Except Assertion TcpConnection}
    {x : Except Assertion TcpConnection} (h : StaysUndisturbed calm c x)
    (hf : ∀ c', StaysUndisturbed calm c' (f c')) : StaysUndisturbed calm c (x >>= f) :=
  Ends.bind h fun c' hc' => (hf c').imp fun _ ha => hc'.trans ha

theorem Undisturbed.leaves {x : Except Assertion TcpConnection} (h : Undisturbed calm c c')
    (hx : StaysUndisturbed calm c' x) : StaysUndisturbed calm c x :=
  hx.imp fun _ ha => h.trans ha

/-- A check, or an operation on a channel or a buffer, comes before the result. -/
theorem undisturbed_after {α : Type} {x : Except Assertion α}
    {f : α → Except Assertion TcpConnection}
    (hf : ∀ a, StaysUndisturbed calm c (f a)) : StaysUndisturbed calm c (x >>= f) := by
  refine Ends.bind (P := fun _ => True) ?_ fun a _ => hf a
  exact ends_iff.mpr ⟨fun _ _ => trivial, fun _ _ => trivial⟩

/-! ### Sending -/

theorem queueHighWaterMark_undisturbed (c : TcpConnection) (oldLen remaining : Nat) :
    Undisturbed calm c (c.queueHighWaterMark oldLen remaining) := by
  unfold queueHighWaterMark
  split
  · exact undisturbed_queueInLoop _ rfl fun _ => trivial
  · exact Undisturbed.refl c

theorem directWrite_undisturbed (c : TcpConnection) (data : Bytes) (w : WriteResult) :
    Undisturbed calm c (c.directWrite data w).conn := by
  cases w with
  | wrote n =>
    have hwrote : Undisturbed calm c (c.record (.written (data.take n))) :=
      undisturbed_record _ trivial
    unfold directWrite
    dsimp only
    split
    · exact hwrote.trans (undisturbed_queueInLoop .writeCompleteCallback rfl fun _ => trivial)
    · exact hwrote
  | failed errno => exact undisturbed_record _ trivial

theorem appendOutput_staysUndisturbed (c : TcpConnection) (rest : Bytes) :
    StaysUndisturbed calm c (c.appendOutput rest) := by
  have hmark : Undisturbed calm c
      (c.queueHighWaterMark c.outputBuffer.readableBytes rest.length) :=
    queueHighWaterMark_undisturbed c _ _
  unfold appendOutput
  refine hmark.leaves (undisturbed_after fun b => ?_)
  apply ends_ite
  · exact fun _ => undisturbed_after fun ch => ends_ok (undisturbed_of_eq rfl rfl rfl rfl)
  · exact fun _ => ends_ok (undisturbed_of_eq rfl rfl rfl rfl)

theorem sendInLoop_staysUndisturbed (c : TcpConnection) (data : Bytes) (w : WriteResult) :
    StaysUndisturbed calm c (c.sendInLoop data w) := by
  have hdirect : Undisturbed calm c (if c.writesDirectly then c.directWrite data w
      else ⟨c, 0, false⟩ : DirectWrite).conn := by
    split
    · exact directWrite_undisturbed c data w
    · exact Undisturbed.refl c
  unfold sendInLoop
  apply ends_ite
  · exact fun _ => ends_ok (Undisturbed.refl c)
  · intro _
    dsimp only
    exact ends_ite (fun _ => hdirect.leaves (appendOutput_staysUndisturbed _ _)) fun _ => hdirect

/-- Only a connection that is shutting down is shut down by its drained output. -/
theorem outputDrained_staysUndisturbed (c : TcpConnection) :
    StaysUndisturbed calm c c.outputDrained := by
  unfold outputDrained
  refine undisturbed_after fun ch => ?_
  have hquiet : Undisturbed calm c (c.setChannel ch) := undisturbed_of_eq rfl rfl rfl rfl
  have hcompleted : Undisturbed calm c (if c.writeCompleteCallback = true then
      (c.setChannel ch).queueInLoop .writeCompleteCallback else c.setChannel ch) := by
    split
    · exact hquiet.trans (undisturbed_queueInLoop .writeCompleteCallback rfl fun _ => trivial)
    · exact hquiet
  apply ends_ite
  · intro hstate
    refine ends_ok (hcompleted.trans (shutdownInLoop_undisturbed fun _ hconn => ?_))
    have hsame : (if c.writeCompleteCallback = true then
        (c.setChannel ch).queueInLoop .writeCompleteCallback else c.setChannel ch).state =
          .kDisconnecting := by
      split <;> exact hstate
    cases hsame.symm.trans hconn
  · exact fun _ => ends_ok hcompleted

theorem handleWrite_staysUndisturbed (c : TcpConnection) (w : WriteResult) :
    StaysUndisturbed calm c (c.handleWrite w) := by
  unfold handleWrite
  apply ends_ite
  · intro _
    cases w with
    | wrote n =>
      have hwrote : Undisturbed calm c (c.record (.written (c.outputBuffer.content.take n))) :=
        undisturbed_record _ trivial
      apply ends_ite
      · intro _
        refine undisturbed_after fun b => ?_
        have hretrieved : Undisturbed calm c
            { c.record (.written (c.outputBuffer.content.take n)) with outputBuffer := b } :=
          hwrote.trans (undisturbed_of_eq rfl rfl rfl rfl)
        apply ends_ite
        · exact fun _ => hretrieved.leaves (outputDrained_staysUndisturbed _)
        · exact fun _ => ends_ok hretrieved
      · exact fun _ => ends_ok hwrote
    | failed errno => exact ends_ok (undisturbed_record _ trivial)
  · exact fun _ => ends_ok (Undisturbed.refl c)

/-! ### Reading and closing -/

theorem startReadInLoop_staysUndisturbed (c : TcpConnection) :
    StaysUndisturbed calm c c.startReadInLoop := by
  unfold startReadInLoop
  apply ends_ite
  · exact fun _ => undisturbed_after fun ch => ends_ok (undisturbed_of_eq rfl rfl rfl rfl)
  · exact fun _ => ends_ok (Undisturbed.refl c)

theorem stopReadInLoop_staysUndisturbed (c : TcpConnection) :
    StaysUndisturbed calm c c.stopReadInLoop := by
  unfold stopReadInLoop
  apply ends_ite
  · exact fun _ => undisturbed_after fun ch => ends_ok (undisturbed_of_eq rfl rfl rfl rfl)
  · exact fun _ => ends_ok (Undisturbed.refl c)

theorem handleClose_staysUndisturbed (c : TcpConnection) (resume : Resume) :
    StaysUndisturbed calm c (c.handleClose resume) := by
  unfold handleClose
  exact undisturbed_after fun _ => undisturbed_after fun ch =>
    ends_ok (undisturbed_disconnected ch _)

theorem connectDestroyed_staysUndisturbed (c : TcpConnection) :
    StaysUndisturbed calm c c.connectDestroyed := by
  unfold connectDestroyed
  apply ends_ite
  · exact fun _ => undisturbed_after fun ch => ends_ok (undisturbed_disconnected ch _)
  · exact fun _ => undisturbed_after fun ch => ends_ok (undisturbed_of_eq rfl rfl rfl rfl)

theorem removeConnectionInLoop_staysUndisturbed (c : TcpConnection) :
    StaysUndisturbed calm c c.removeConnectionInLoop := by
  have hfree : Undisturbed calm c { c with tracked := false } := undisturbed_of_eq rfl rfl rfl rfl
  unfold removeConnectionInLoop
  exact undisturbed_after fun _ => undisturbed_after fun _ =>
    ends_ok (hfree.trans (undisturbed_queueInLoop .connectDestroyed rfl fun _ => trivial))

theorem release_staysUndisturbed (c : TcpConnection) : StaysUndisturbed calm c c.release := by
  have hfree : Undisturbed calm c { c with tracked := false } := undisturbed_of_eq rfl rfl rfl rfl
  unfold release
  apply ends_ite
  · exact fun _ => hfree.leaves (connectDestroyed_staysUndisturbed _)
  · intro _
    exact ends_ok (hfree.trans (undisturbed_queueInLoop .connectDestroyed rfl fun _ => trivial))

theorem callCloseCallback_staysUndisturbed (c : TcpConnection) :
    StaysUndisturbed calm c c.callCloseCallback := by
  have hcalled : Undisturbed calm c (c.record .closeCallback) :=
    undisturbed_record _ trivial
  unfold callCloseCallback
  apply ends_ite
  · exact fun _ => hcalled.leaves (removeConnectionInLoop_staysUndisturbed _)
  · exact fun _ => undisturbed_after fun _ =>
      ends_ok (hcalled.trans (undisturbed_of_eq rfl rfl rfl rfl))

theorem handleRead_staysUndisturbed (c : TcpConnection) (data : Bytes) :
    StaysUndisturbed calm c (c.handleRead data) := by
  unfold handleRead
  refine undisturbed_after fun b => ?_
  have hread : Undisturbed calm c { c with inputBuffer := b } := undisturbed_of_eq rfl rfl rfl rfl
  apply ends_ite
  · intro _
    have hcalled := hread.trans (undisturbed_record .messageCallback trivial)
    exact ends_ok (hcalled.trans (undisturbed_of_eq rfl rfl rfl rfl))
  · exact fun _ => hread.leaves (handleClose_staysUndisturbed _ _)

theorem writePart_staysUndisturbed (c : TcpConnection) (w : WriteResult) :
    StaysUndisturbed calm c (c.writePart w) := by
  unfold writePart
  apply ends_ite
  · exact fun _ => StaysUndisturbed.bind (handleWrite_staysUndisturbed c w) fun _ =>
      ends_ok (undisturbed_of_eq rfl rfl rfl rfl)
  · exact fun _ => ends_ok (undisturbed_of_eq rfl rfl rfl rfl)

theorem errorPart_staysUndisturbed (c : TcpConnection) (r : ReadResult) (w : WriteResult) :
    StaysUndisturbed calm c (c.errorPart r w) := by
  unfold errorPart
  apply ends_ite
  · intro _
    cases r with
    | bytes data => exact handleRead_staysUndisturbed c data
    | failed errno => exact writePart_staysUndisturbed c w
  · exact fun _ => writePart_staysUndisturbed c w

theorem handleEvent_staysUndisturbed (c : TcpConnection) (r : ReadResult) (w : WriteResult) :
    StaysUndisturbed calm c (c.handleEvent r w) := by
  have hplace : Undisturbed calm c (c.setChannel
      { c.channel with eventHandling := true, active := .current }) :=
    undisturbed_of_eq rfl rfl rfl rfl
  unfold handleEvent
  apply ends_ite
  · exact fun _ => hplace.leaves (handleClose_staysUndisturbed _ _)
  · exact fun _ => hplace.leaves (errorPart_staysUndisturbed _ _ _)

theorem closeReturn_staysUndisturbed (c : TcpConnection) (r : ReadResult) (w : WriteResult)
    (resume : Resume) : StaysUndisturbed calm c (c.closeReturn r w resume) := by
  cases resume with
  | functor => exact ends_ok (Undisturbed.refl c)
  | errorPart => exact errorPart_staysUndisturbed c r w
  | writePart => exact writePart_staysUndisturbed c w

theorem callbackReturn_staysUndisturbed (c : TcpConnection) (r : ReadResult) (w : WriteResult) :
    StaysUndisturbed calm c (c.callbackReturn r w) := by
  have hpop (rest : List Frame) : Undisturbed calm c { c with frames := rest } :=
    undisturbed_of_eq rfl rfl rfl rfl
  unfold callbackReturn
  split
  · exact ends_ok (Undisturbed.refl c)
  · exact ends_ok (hpop _)
  · exact (hpop _).leaves (writePart_staysUndisturbed _ w)
  · refine (hpop _).leaves (StaysUndisturbed.bind (callCloseCallback_staysUndisturbed _) ?_)
    exact fun _ => closeReturn_staysUndisturbed _ r w _
  · exact undisturbed_after fun ch => ends_ok (undisturbed_of_eq rfl rfl rfl rfl)

/-! ### Functors, calls and steps -/

/-- A functor that does not close or shut down on request. -/
def Functor.isCalm : Functor → Prop
  | .shutdownInLoop => False
  | _ => True

theorem runFunctor_staysUndisturbed (c : TcpConnection) (f : Functor) (w : WriteResult)
    (hcalm : calm → f.isCalm) : StaysUndisturbed calm c (c.runFunctor f w) := by
  cases f with
  | sendInLoop message => exact sendInLoop_staysUndisturbed c message w
  | shutdownInLoop =>
    exact ends_ok (shutdownInLoop_undisturbed fun h => (hcalm h).elim)
  | forceCloseInLoop =>
    exact ends_ite (fun _ => handleClose_staysUndisturbed c _) fun _ => ends_ok (Undisturbed.refl c)
  | startReadInLoop => exact startReadInLoop_staysUndisturbed c
  | stopReadInLoop => exact stopReadInLoop_staysUndisturbed c
  | connectDestroyed => exact connectDestroyed_staysUndisturbed c
  | writeCompleteCallback => exact ends_ok (undisturbed_record _ trivial)
  | highWaterMarkCallback size => exact ends_ok (undisturbed_record _ trivial)

/-- A call that does not close or shut down. -/
def Call.isCalm : Call → Prop
  | .shutdown => False
  | .forceClose => False
  | .forceCloseWithDelay => False
  | _ => True

theorem callInLoop_staysUndisturbed (c : TcpConnection) (k : Call) (w : WriteResult)
    (hcalm : calm → k.isCalm) : StaysUndisturbed calm c (c.callInLoop w k) := by
  have hset (h : calm → False) : Undisturbed calm c (c.setState .kDisconnecting) :=
    undisturbed_disconnecting h
  cases k with
  | send message => exact sendInLoop_staysUndisturbed c message w
  | shutdown =>
    refine ends_ok ((hset hcalm).trans (shutdownInLoop_undisturbed fun _ hconn => ?_))
    cases hconn
  | forceClose =>
    refine ends_ok ((hset hcalm).trans (undisturbed_queueInLoop .forceCloseInLoop rfl ?_))
    exact fun h => (hcalm h).elim
  | forceCloseWithDelay =>
    exact ends_ok ((hset hcalm).trans (undisturbed_of_eq rfl rfl rfl rfl))
  | startRead => exact startReadInLoop_staysUndisturbed c
  | stopRead => exact stopReadInLoop_staysUndisturbed c

theorem call_staysUndisturbed (c : TcpConnection) (k : Call) (w : WriteResult)
    (hcalm : calm → k.isCalm) : StaysUndisturbed calm c (c.call k w) :=
  ends_ite (fun _ => callInLoop_staysUndisturbed c k w hcalm) fun _ => ends_ok (Undisturbed.refl c)

/-- The functor that a step takes from the batch, the call that it begins or finishes. -/
def booked (c : TcpConnection) : Action → TcpConnection
  | .runFunctor _ => c.dequeued c.functors.batch.tail
  | .beginCall k => { c with calling := c.calling ++ [k] }
  | .finishCall i => c.finishCall i
  | _ => c

/-- A step that neither closes nor shuts down on request. -/
def Action.isCalm (c : TcpConnection) : Action → Prop
  | .runFunctor _ => ∀ f ∈ c.functors.batch.head?, f.isCalm
  | .call k _ => k.isCalm
  | .delayedForceClose => False
  | _ => True

/-- **A step disturbs a connection only by its own bookkeeping**, and by what is requested. -/
theorem step_staysUndisturbed (c : TcpConnection) (a : Action) :
    StaysUndisturbed (a.isCalm c) (c.booked a) (c.step a) := by
  cases a with
  | report revents => exact ends_ok (undisturbed_of_eq rfl rfl rfl rfl)
  | handleEvent r w => exact handleEvent_staysUndisturbed c r w
  | callbackReturn r w => exact callbackReturn_staysUndisturbed c r w
  | runFunctor w =>
    cases hbatch : c.functors.batch with
    | nil =>
      simp only [step, runNextFunctor, booked, hbatch]
      exact ends_ok (undisturbed_of_eq (by rw [dequeued, List.tail_nil, ← hbatch]) rfl rfl rfl)
    | cons f rest =>
      simp only [step, runNextFunctor, booked, hbatch, List.tail_cons]
      refine runFunctor_staysUndisturbed _ f w fun h => h f ?_
      rw [hbatch]
      rfl
  | delayedForceClose =>
    have hbook : Undisturbed False c { c with delayed := c.delayed - 1 } :=
      undisturbed_of_eq rfl rfl rfl rfl
    exact hbook.leaves (call_staysUndisturbed _ .forceClose _ False.elim)
  | call k w => exact call_staysUndisturbed c k w id
  | beginCall k => exact ends_ok (Undisturbed.refl _)
  | finishCall i => exact ends_ok (Undisturbed.refl _)
  | editInput b => exact ends_ok (undisturbed_of_eq rfl rfl rfl rfl)

end Kaycc.TcpConnection
