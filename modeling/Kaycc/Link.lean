/-
  Kaycc/Link.lean
  ===============
  **Two connections and the stream socket between them.**

  Each side is a connection on its own loop, with its holders, other threads and
  its server, as in `Closing`; between the sides lies one `Pipe` in either
  direction.  The kernel is the pipes: `write` accepts bytes only into a pipe that
  is writable and fails with `EPIPE` or `ECONNRESET` only into one that is not,
  `readv` returns the next bytes of the other pipe, or none at its end.
  `shutdownWrite` shuts a pipe, and so does `~TcpConnection`, whose `~Socket` closes
  the fd.  The network may reset both pipes at any time, which loses bytes in them.

  A user takes bytes out of an input buffer by `retrieve`.  `offered` are the
  payloads that came to `sendInLoop`, `sent` those that it took on.

  `bytes_conserved`: in every run each byte that was sent is, in its place, with the
  user of the other side, in that side's input buffer, in the pipe, lost by a reset,
  or in the output buffer.  `end_of_stream_complete`: a side that reads the end of a
  stream that was not reset has all that the other's kernel accepted, and all that
  its `sendInLoop` took on if it was not disconnected.
-/
import Kaycc.TcpConnectionClosed
import Kaycc.TcpConnectionFlow
import Kaycc.Pipe
import Mathlib.Logic.Function.Basic

namespace Kaycc

open Transition Transition.System TcpConnection Postcondition

/-! ### Sides -/

inductive Side where
  | left
  | right
deriving DecidableEq, Repr

namespace Side

def other : Side → Side
  | .left => .right
  | .right => .left

@[simp] theorem other_other (x : Side) : x.other.other = x := by cases x <;> rfl

theorem other_ne (x : Side) : x.other ≠ x := by
  cases x with
  | left => exact fun h => by cases h
  | right => exact fun h => by cases h

theorem eq_or_other (x y : Side) : y = x ∨ y = x.other := by
  cases x <;> cases y <;> first | exact .inl rfl | exact .inr rfl

end Side

/-! ### The link -/

structure Endpoint where
  closing : Closing
  offered : List Bytes
  sent : List Bytes
  taken : Bytes
  ended : Bool               -- readv has returned 0
  released : Bool            -- ~TcpConnection has run

def Endpoint.conn (e : Endpoint) : TcpConnection := e.closing.conn

/-- `pipes x` leads from `x` to the other side. -/
structure Link where
  ends : Side → Endpoint
  pipes : Side → Pipe.History UInt8

namespace Link

variable {s s' : Link} {x y : Side}

inductive Action where
  | act (x : Side) (a : Closing.Action)
  | retrieve (x : Side) (len : Nat)
  | destruct (x : Side)
  | reset (keep : Side → Nat)

/-- What `readv` may answer. -/
def reads (p : Pipe UInt8) : ReadResult → Prop
  | .bytes [] => p.AtEnd
  | .bytes data => data <+: p.queue
  | .failed _ => True

/-- What `sockets::write` may answer. -/
structure Writes (p : Pipe UInt8) (w : WriteResult) : Prop where
  whole : p.Writable → ¬ w.Broken
  failed : ¬ p.Writable → w.isFailure
  shut : p.shut = true → p.reset = false → w = .failed .EPIPE

def readBy (c : TcpConnection) : Closing.Action → Option ReadResult
  | .conn a => c.readBy a
  | _ => none

/-- The answer of `sockets::write` that a step of a side uses. -/
def writeResult : Closing.Action → Option WriteResult
  | .conn a => a.writeResult
  | _ => none

/-- The kernel's answers to a step are those of its pipes. -/
def answers (s : Link) (x : Side) (a : Closing.Action) : Prop :=
  (∀ r ∈ readBy (s.ends x).conn a, reads (s.pipes x.other).pipe r) ∧
    ∀ w ∈ writeResult a, Writes (s.pipes x).pipe w

/-- The changes of the input buffer that are not `retrieve`. -/
def editsInput : Closing.Action → Bool
  | .conn (.editInput _) => true
  | _ => false

/-- Neither the server nor a functor, a call, an event or a callback refers to the connection. -/
def unreferenced (c : TcpConnection) : Prop :=
  c.tracked = false ∧ c.removals = 0 ∧ c.functors.waiting = [] ∧ c.calling = [] ∧
    c.channel.active = .absent ∧ c.frames = []

def enabled (s : Link) : Action → Prop
  | .act x a =>
      (s.ends x).released = false ∧ Closing.enabled (s.ends x).closing a ∧
        editsInput a = false ∧ s.answers x a
  | .retrieve x len =>
      (s.ends x).released = false ∧ (s.ends x).closing.point ≠ .polling ∧
        len ≤ (s.ends x).conn.inputBuffer.readableBytes
  | .destruct x => (s.ends x).released = false ∧ unreferenced (s.ends x).conn
  | .reset _ => True

/-- The payload that a step of a side hands to `sendInLoop`. -/
def handed (c : TcpConnection) : Closing.Action → List Bytes
  | .conn a => ((c.handed a).map Prod.fst).toList
  | _ => []

def entered (c : TcpConnection) : Closing.Action → List Bytes
  | .conn a => c.entered a
  | _ => []

/-- The bytes that the kernel has accepted between two states of a connection. -/
def accepted (c c' : TcpConnection) : Bytes := (writtenIn c'.log).drop (writtenIn c.log).length

/-- The side after a step that has led its connection to `closing`. -/
def stepped (e : Endpoint) (a : Closing.Action) (closing : Closing) : Endpoint :=
  { e with
    closing := closing
    offered := e.offered ++ handed e.conn a
    sent := e.sent ++ entered e.conn a
    ended := e.ended || decide (readBy e.conn a = some (.bytes [])) }

/-- The pipe of a side that has written, and perhaps shut down. -/
def outward (h : Pipe.History UInt8) (c c' : TcpConnection) : Pipe.History UInt8 :=
  if .shutdownWrite ∈ c'.log then (h.write (accepted c c')).close else h.write (accepted c c')

/-- The pipe from the other side after a read. -/
def inward (h : Pipe.History UInt8) (c : TcpConnection) (a : Closing.Action) :
    Pipe.History UInt8 :=
  h.take (bytesOf (readBy c a)).length

def setEnd (s : Link) (x : Side) (e : Endpoint) : Link :=
  { s with ends := Function.update s.ends x e }

/-- The link after a step of a side. -/
def moved (s : Link) (x : Side) (a : Closing.Action) (closing : Closing) : Link where
  ends := Function.update s.ends x (stepped (s.ends x) a closing)
  pipes y :=
    if y = x then outward (s.pipes x) (s.ends x).conn closing.conn
    else inward (s.pipes x.other) (s.ends x).conn a

def step (s : Link) : Action → Except Assertion Link
  | .act x a => do
      let closing ← (s.ends x).closing.step a
      pure (s.moved x a closing)
  | .retrieve x len => do
      let e := s.ends x
      let inputBuffer ← e.conn.inputBuffer.retrieve len
      pure (s.setEnd x { e with
        closing := { e.closing with conn := { e.conn with inputBuffer := inputBuffer } }
        taken := e.taken ++ e.conn.inputBuffer.content.take len })
  | .destruct x => do
      let e := s.ends x
      e.conn.destruct
      pure { s.setEnd x { e with released := true } with
        pipes := Function.update s.pipes x (s.pipes x).close }
  | .reset keep => .ok { s with pipes := fun y => (s.pipes y).abort (keep y) }

/-- Both connections are in the `connectionCallback_` of their `connectEstablished`; which of
    them came first makes no difference to the pipes. -/
def system : System Link Action Assertion where
  init s := (∀ x, Closing.system.init (s.ends x).closing ∧ (s.ends x).offered = [] ∧
    (s.ends x).sent = [] ∧ (s.ends x).taken = [] ∧ (s.ends x).ended = false ∧
      (s.ends x).released = false) ∧ ∀ x, s.pipes x = .empty
  enabled := enabled
  step := step

/-! ### What a step of a side does -/

theorem release_aside {c : TcpConnection} (hw : c.channel.Watched) : StaysAside c c.release := by
  have hfree : Aside c { c with tracked := false } := aside_same rfl rfl rfl rfl id
  unfold release
  apply ends_ite
  · exact fun _ => (connectDestroyed_aside (hfree.watched hw)).imp fun _ ha => hfree.trans ha
  · exact fun _ => ends_ok (hfree.trans (aside_queueInLoop _))

/-- The steps of a side's loop and server are beside the streams. -/
theorem serverStep_aside {t : Closing} (hw : t.conn.channel.Watched) {a : Closing.Action}
    (ha : ∀ b, a ≠ .conn b) :
    Ends (fun t' => Aside t.conn t'.conn) (fun _ => True) (t.step a) := by
  cases a with
  | conn b => exact absurd rfl (ha b)
  | advance =>
    refine ends_ok ?_
    change Aside t.conn (t.conn.advanced t.point)
    unfold advanced
    split
    · exact ⟨fun h => ⟨h.index, h.registered, h.interest⟩, rfl, rfl, ⟨[], by simp⟩, .inl rfl,
        fun _ => id⟩
    · exact Aside.refl _
  | removeConnectionInLoop =>
    have hbook : Aside t.conn { t.conn with removals := t.conn.removals - 1 } :=
      aside_same rfl rfl rfl rfl id
    refine Ends.bind (P := Aside t.conn) ?_ fun c hc => ends_ok hc
    unfold removeConnectionInLoop
    have hcheck {c : Prop} [Decidable c] {e : Assertion} :
        Ends (fun _ => True) (fun _ => True) (check c e) := (check_ends trivial).imp fun _ _ => trivial
    refine hcheck.bind fun _ _ => ?_
    refine hcheck.bind fun _ _ => ?_
    exact ends_ok (hbook.trans (aside_same rfl rfl rfl rfl id))
  | destroyServer =>
    refine Ends.bind (P := Aside t.conn) ?_ fun c hc => ends_ok (hc.trans ?_)
    · exact ends_ite (fun _ => release_aside hw) fun _ => Aside.refl _
    · exact aside_same rfl rfl rfl rfl id

/-- **What a step of a side carries.** -/
theorem closingStep_carries {t : Closing} {w : WriteResult} (hw : t.conn.channel.Watched)
    (hf : Flushing t.conn) {a : Closing.Action} (hen : Closing.enabled t a)
    (hedit : editsInput a = false) (hans : ∀ v ∈ writeResult a, v = w) :
    Ends (fun t' => Carried w t.conn t'.conn (entered t.conn a).flatten (bytesOf (readBy t.conn a)))
      (fun _ => True) (t.step a) := by
  have hserver (ha : ∀ b, a ≠ .conn b) (hent : entered t.conn a = [])
      (hread : readBy t.conn a = none) :
      Ends (fun t' => Carried w t.conn t'.conn (entered t.conn a).flatten
        (bytesOf (readBy t.conn a))) (fun _ => True) (t.step a) := by
    rw [hent, hread]
    exact (serverStep_aside hw ha).imp fun _ h => h.carried hw
  cases a with
  | conn a =>
    have hbuf (b : Buffer) : a ≠ .editInput b := by
      rintro rfl
      cases hedit
    have hcarries := step_carries hw hf hen hbuf hans
    exact hcarries.bind fun c hc => ends_ok hc
  | advance => exact hserver (fun b h => by cases h) rfl rfl
  | removeConnectionInLoop => exact hserver (fun b h => by cases h) rfl rfl
  | destroyServer => exact hserver (fun b h => by cases h) rfl rfl

/-! ### The invariant -/

/-- The stream from `x` to the other side. -/
structure Half (s : Link) (x : Side) : Prop where
  watched : (s.ends x).conn.channel.Watched
  flushing : Flushing (s.ends x).conn
  flushed : (s.pipes x).pipe.reset = false → Flushed (s.ends x).conn
  outgoing : (s.ends x).conn.outgoing = (s.ends x).sent.flatten
  sound : (s.pipes x).Sound
  written : (s.pipes x).written = writtenIn (s.ends x).conn.log
  read : (s.pipes x).read =
    (s.ends x.other).taken ++ (s.ends x.other).conn.inputBuffer.content
  shut : .shutdownWrite ∈ (s.ends x).conn.log → (s.pipes x).pipe.shut = true
  shutBy : (s.pipes x).pipe.shut = true → .shutdownWrite ∈ (s.ends x).conn.log ∨
    .connectionCallback false ∈ (s.ends x).conn.log
  ended : (s.ends x.other).ended = true → (s.pipes x).pipe.AtEnd
  offered : (s.pipes x).pipe.reset = false → .connectionCallback false ∉ (s.ends x).conn.log →
    (s.ends x).sent <+: (s.ends x).offered ∧
      (.shutdownWrite ∉ (s.ends x).conn.log → (s.ends x).sent = (s.ends x).offered)

def Inv (s : Link) : Prop := ∀ x, Half s x

theorem init_inv (h : system.init s) : Inv s := by
  intro x
  obtain ⟨hends, hpipes⟩ := h
  obtain ⟨⟨oil, wc, hw, hwm, hconn⟩, hoff, hsent, -, -, -⟩ := hends x
  obtain ⟨⟨oil', wc', hw', hwm', hconn'⟩, -, -, htaken, hended, -⟩ := hends x.other
  rw [connectEstablished_eq rfl Channel.new_synced.toWatched] at hconn hconn'
  have hc : (s.ends x).conn = (new oil wc hw hwm).established := (Except.ok.inj hconn).symm
  have hc' : (s.ends x.other).conn = (new oil' wc' hw' hwm').established :=
    (Except.ok.inj hconn').symm
  have hout : (new oil wc hw hwm).established.outputBuffer.content = [] := Buffer.content_empty
  have hin : (new oil' wc' hw' hwm').established.inputBuffer.content = [] := Buffer.content_empty
  have hlog : (new oil wc hw hwm).established.log = [.connectionCallback true] := rfl
  have hnoShut : .shutdownWrite ∉ (new oil wc hw hwm).established.log := by
    rw [hlog]
    decide
  have hwritten : writtenIn (new oil wc hw hwm).established.log = [] := rfl
  have hpipe := hpipes x
  constructor
  · rw [hc]
    exact Channel.watching_watched _ _
  · rw [hc]
    exact ⟨fun h => (by cases h), fun _ h => (by cases h), fun _ hne => absurd hout hne⟩
  · rw [hc]
    exact fun _ hmem => absurd hmem hnoShut
  · rw [hc, hsent, TcpConnection.outgoing, hwritten, hout]
    rfl
  · rw [hpipe]
    exact Pipe.History.empty_sound
  · rw [hpipe, hc, hwritten]
    rfl
  · rw [hpipe, hc', htaken, hin]
    rfl
  · rw [hc]
    exact fun hmem => absurd hmem hnoShut
  · rw [hpipe]
    exact fun h => (by cases h)
  · rw [hended]
    exact fun h => (by cases h)
  · rw [hsent, hoff]
    exact fun _ _ => ⟨List.prefix_refl _, fun _ => rfl⟩

/-! ### Steps keep the invariant -/

theorem writtenIn_accepted {c c' : TcpConnection} (h : c.log <+: c'.log) :
    writtenIn c'.log = writtenIn c.log ++ accepted c c' := by
  obtain ⟨es, hlog⟩ := h
  have hsplit : writtenIn c'.log = writtenIn c.log ++ writtenIn es := by
    rw [← hlog, writtenIn_append]
  rw [accepted, hsplit, List.drop_left]

theorem outward_eq (h : Pipe.History UInt8) (c c' : TcpConnection) :
    (outward h c c').written = h.written ++ accepted c c' ∧ (outward h c c').read = h.read ∧
      (outward h c c').pipe.reset = h.pipe.reset ∧
      ((outward h c c').pipe.shut = true ↔ .shutdownWrite ∈ c'.log ∨ h.pipe.shut = true) := by
  unfold outward
  split
  · rename_i hmem
    exact ⟨rfl, rfl, rfl, iff_of_true rfl (.inl hmem)⟩
  · rename_i hmem
    exact ⟨rfl, rfl, rfl, ⟨.inr, fun h => h.resolve_left hmem⟩⟩

/-- While the stream is whole and the side has not shut down, its payloads are taken on. -/
theorem Half.takesOn {w : WriteResult} (h : Half s x) (hw : Writes (s.pipes x).pipe w)
    (hreset : (s.pipes x).pipe.reset = false)
    (hdown : .connectionCallback false ∉ (s.ends x).conn.log)
    (hshut : .shutdownWrite ∉ (s.ends x).conn.log) : (s.ends x).conn.takesOn w := by
  refine ⟨h.flushing.isOpen hdown, fun hdrop => hw.whole ⟨?_, hreset⟩ hdrop.2⟩
  apply Bool.eq_false_iff.mpr
  intro hs
  rcases h.shutBy hs with hmem | hmem
  · exact hshut hmem
  · exact hdown hmem

/-- After `shutdownWrite` they are dropped. -/
theorem Half.drops {w : WriteResult} (h : Half s x) (hw : Writes (s.pipes x).pipe w)
    (hreset : (s.pipes x).pipe.reset = false)
    (hdown : .connectionCallback false ∉ (s.ends x).conn.log)
    (hshut : .shutdownWrite ∈ (s.ends x).conn.log) : (s.ends x).conn.drops w := by
  have hnil := h.flushed hreset hshut hdown
  refine ⟨⟨?_, Buffer.content_eq_nil.mp hnil⟩, .inl (hw.shut (h.shut hshut) hreset)⟩
  exact Bool.eq_false_iff.mpr fun hwriting => h.flushing.waiting hwriting hnil

theorem handed_result {c : TcpConnection} {a : TcpConnection.Action} {m : Bytes}
    {w : WriteResult} (h : c.handed a = some (m, w)) : w ∈ a.writeResult := by
  cases a with
  | call k v =>
    cases k with
    | send message =>
      simp only [TcpConnection.handed] at h
      split at h
      · cases h
        rfl
      · cases h
    | _ => cases h
  | runFunctor v =>
    simp only [TcpConnection.handed] at h
    split at h
    · cases h
      rfl
    · cases h
  | _ => cases h

/-- What a step offers and what it sends. -/
theorem Half.offered_step (h : Half s x) {a : Closing.Action} {log : List Event}
    (hperm : ∀ w ∈ writeResult a, Writes (s.pipes x).pipe w)
    (hlog : (s.ends x).conn.log <+: log) (hreset : (s.pipes x).pipe.reset = false)
    (hdown : .connectionCallback false ∉ log) :
    (s.ends x).sent ++ entered (s.ends x).conn a <+:
        (s.ends x).offered ++ handed (s.ends x).conn a ∧
      (.shutdownWrite ∉ log → (s.ends x).sent ++ entered (s.ends x).conn a =
        (s.ends x).offered ++ handed (s.ends x).conn a) := by
  have hdown' : .connectionCallback false ∉ (s.ends x).conn.log :=
    fun hmem => hdown (hlog.subset hmem)
  obtain ⟨hpre, hall⟩ := h.offered hreset hdown'
  have hnone (hent : entered (s.ends x).conn a = []) (hhand : handed (s.ends x).conn a = []) :
      (s.ends x).sent ++ entered (s.ends x).conn a <+:
          (s.ends x).offered ++ handed (s.ends x).conn a ∧
        (.shutdownWrite ∉ log → (s.ends x).sent ++ entered (s.ends x).conn a =
          (s.ends x).offered ++ handed (s.ends x).conn a) := by
    rw [hent, hhand, List.append_nil, List.append_nil]
    exact ⟨hpre, fun hnot => hall fun hmem => hnot (hlog.subset hmem)⟩
  cases a with
  | conn a =>
    cases hhand : (s.ends x).conn.handed a with
    | none =>
      apply hnone
      · simp only [entered, TcpConnection.entered, hhand]
      · simp only [handed, hhand, Option.map_none, Option.toList_none]
    | some mw =>
      obtain ⟨m, w⟩ := mw
      have hw : Writes (s.pipes x).pipe w := hperm w (handed_result hhand)
      have hhanded : handed (s.ends x).conn (.conn a) = [m] := by
        simp only [handed, hhand, Option.map_some, Option.toList_some]
      have hentered : entered (s.ends x).conn (.conn a) =
          if (s.ends x).conn.takesOn w then [m] else [] := by
        simp only [entered, TcpConnection.entered, hhand]
      rw [hhanded, hentered]
      by_cases hshut : .shutdownWrite ∈ (s.ends x).conn.log
      · rw [if_neg fun ht => ht.2 (h.drops hw hreset hdown' hshut), List.append_nil]
        exact ⟨hpre.trans (List.prefix_append _ _), fun hnot => absurd (hlog.subset hshut) hnot⟩
      · rw [if_pos (h.takesOn hw hreset hdown' hshut), hall hshut]
        exact ⟨List.prefix_refl _, fun _ => rfl⟩
  | advance => exact hnone rfl rfl
  | removeConnectionInLoop => exact hnone rfl rfl
  | destroyServer => exact hnone rfl rfl

/-- Bytes are accepted only by a pipe that is writable. -/
theorem accepted_nil {p : Pipe UInt8} {c c' : TcpConnection} {a : Closing.Action} {w : WriteResult}
    {entered received : Bytes} (hperm : ∀ v ∈ writeResult a, Writes p v)
    (hw : ∀ v ∈ writeResult a, v = w) (hnone : writeResult a = none → w = .failed .EPIPE)
    (hc : Carried w c c' entered received) (hnot : ¬ p.Writable) : accepted c c' = [] := by
  have hfailure : w.isFailure := by
    cases hres : writeResult a with
    | none =>
      rw [hnone hres]
      exact trivial
    | some v =>
      rw [← hw v hres]
      exact (hperm v hres).failed hnot
  exact List.append_right_eq_self.mp ((writtenIn_accepted hc.log).symm.trans (hc.failed hfailure))

/-- The writer of a stream takes a step. -/
theorem Half.write (h : Half s x) {a : Closing.Action} {closing : Closing} {w : WriteResult}
    (hperm : ∀ v ∈ writeResult a, Writes (s.pipes x).pipe v)
    (hw : ∀ v ∈ writeResult a, v = w) (hnone : writeResult a = none → w = .failed .EPIPE)
    (hc : Carried w (s.ends x).conn closing.conn (entered (s.ends x).conn a).flatten
      (bytesOf (readBy (s.ends x).conn a)))
    (hend : s'.ends x = stepped (s.ends x) a closing)
    (hother : s'.ends x.other = s.ends x.other)
    (hpipe : s'.pipes x = outward (s.pipes x) (s.ends x).conn closing.conn) : Half s' x := by
  have hconn : (s'.ends x).conn = closing.conn := by
    rw [hend]
    rfl
  obtain ⟨hwritten, hread, hreset, hshut⟩ :=
    outward_eq (s.pipes x) (s.ends x).conn closing.conn
  rw [← hpipe] at hwritten hread hreset hshut
  have hbroken (hr : (s.pipes x).pipe.reset = false) :
      .shutdownWrite ∈ (s.ends x).conn.log → w.Broken := by
    intro hmem
    cases hres : writeResult a with
    | none => exact .inl (hnone hres)
    | some v =>
      rw [← hw v hres]
      exact .inl ((hperm v hres).shut (h.shut hmem) hr)
  have haccepted : accepted (s.ends x).conn closing.conn = [] ∨ (s.pipes x).pipe.Writable := by
    by_cases hwritable : (s.pipes x).pipe.Writable
    · exact .inr hwritable
    · exact .inl (accepted_nil hperm hw hnone hc hwritable)
  constructor
  · rw [hconn]
    exact hc.watched
  · rw [hconn]
    exact hc.flushing h.flushing
  · intro hr
    rw [hreset] at hr
    rw [hconn]
    exact hc.flushed (hbroken hr) h.flushing (h.flushed hr)
  · rw [hconn, hc.outgoing, h.outgoing, hend]
    exact List.flatten_append.symm
  · rw [hpipe, outward]
    split
    · exact (h.sound.write haccepted).close
    · exact h.sound.write haccepted
  · rw [hwritten, h.written, hconn, writtenIn_accepted hc.log]
  · rw [hread, hother]
    exact h.read
  · rw [hconn]
    exact fun hmem => hshut.mpr (.inl hmem)
  · intro hs
    rw [hconn]
    rcases hshut.mp hs with hmem | hold
    · exact .inl hmem
    · exact (h.shutBy hold).imp (fun hmem => hc.log.subset hmem) fun hmem => hc.log.subset hmem
  · intro hended
    rw [hother] at hended
    have hend' := Pipe.History.atEnd_write (h.ended hended) haccepted
    rw [hpipe, outward]
    split
    · exact Pipe.History.atEnd_close hend'
    · exact hend'
  · intro hr hdown
    rw [hreset] at hr
    rw [hconn] at hdown ⊢
    rw [hend]
    exact h.offered_step hperm hc.log hr hdown

/-- The reader of a stream takes a step. -/
theorem Half.reads (h : Half s x) (hy : x.other = y) {a : Closing.Action} {closing : Closing}
    (hperm : ∀ r ∈ readBy (s.ends y).conn a, Link.reads (s.pipes x).pipe r)
    (hinput : closing.conn.inputBuffer.content = (s.ends y).conn.inputBuffer.content ++
      bytesOf (readBy (s.ends y).conn a))
    (hend : s'.ends x = s.ends x) (hother : s'.ends y = stepped (s.ends y) a closing)
    (hpipe : s'.pipes x = inward (s.pipes x) (s.ends y).conn a) : Half s' x := by
  subst hy
  -- the bytes that were read are the first of the pipe
  have hfirst : (s.pipes x).pipe.queue.take (bytesOf (readBy (s.ends x.other).conn a)).length =
      bytesOf (readBy (s.ends x.other).conn a) := by
    cases hread : readBy (s.ends x.other).conn a with
    | none => rfl
    | some r =>
      have hr := hperm r hread
      cases r with
      | failed errno => rfl
      | bytes data =>
        cases data with
        | nil => rfl
        | cons b rest => exact (List.prefix_iff_eq_take.mp hr).symm
  constructor
  · rw [hend]
    exact h.watched
  · rw [hend]
    exact h.flushing
  · rw [hend, hpipe]
    exact h.flushed
  · rw [hend]
    exact h.outgoing
  · rw [hpipe]
    exact h.sound.take _
  · rw [hend, hpipe]
    exact h.written
  · have hconn : (s'.ends x.other).conn = closing.conn := by
      rw [hother]
      rfl
    have htaken : (s'.ends x.other).taken = (s.ends x.other).taken := by
      rw [hother]
      rfl
    rw [hconn, htaken, hinput, hpipe, ← List.append_assoc, ← h.read]
    change (s.pipes x).read ++ _ = _
    rw [hfirst]
  · rw [hend, hpipe]
    exact h.shut
  · rw [hend, hpipe]
    exact h.shutBy
  · intro hended
    rw [hpipe]
    apply Pipe.History.atEnd_take
    rw [hother] at hended
    rcases Bool.or_eq_true_iff.mp hended with hold | hnew
    · exact h.ended hold
    · exact hperm _ (of_decide_eq_true hnew)
  · rw [hend, hpipe]
    exact h.offered

/-- The answer of `sockets::write` in a step, and what the step carries. -/
theorem Inv.carried (hi : Inv s) {a : Closing.Action} {closing : Closing}
    (hen : s.enabled (.act x a)) (heq : (s.ends x).closing.step a = .ok closing) :
    ∃ w, (∀ v ∈ writeResult a, v = w) ∧ (writeResult a = none → w = .failed .EPIPE) ∧
      Carried w (s.ends x).conn closing.conn (entered (s.ends x).conn a).flatten
        (bytesOf (readBy (s.ends x).conn a)) := by
  obtain ⟨-, hclosing, hedit, -⟩ := hen
  obtain ⟨w, hw, hnone⟩ : ∃ w, (∀ v ∈ writeResult a, v = w) ∧
      (writeResult a = none → w = .failed .EPIPE) := by
    cases hres : writeResult a with
    | none => exact ⟨.failed .EPIPE, fun v h => (by cases h), fun _ => rfl⟩
    | some v => exact ⟨v, fun u h => (by cases h; rfl), fun h => (by cases h)⟩
  exact ⟨w, hw, hnone,
    (closingStep_carries (hi x).watched (hi x).flushing hclosing hedit hw).of_ok heq⟩

theorem Inv.act (hi : Inv s) {a : Closing.Action} {closing : Closing}
    (hen : s.enabled (.act x a)) (heq : (s.ends x).closing.step a = .ok closing) :
    Inv (s.moved x a closing) := by
  obtain ⟨w, hw, hnone, hc⟩ := hi.carried hen heq
  have hanswers := hen.2.2.2
  have hself : (s.moved x a closing).ends x = stepped (s.ends x) a closing :=
    Function.update_self ..
  have hother : (s.moved x a closing).ends x.other = s.ends x.other :=
    Function.update_of_ne x.other_ne ..
  intro y
  rcases x.eq_or_other y with rfl | rfl
  · exact (hi y).write hanswers.2 hw hnone hc hself hother (if_pos rfl)
  · exact (hi x.other).reads x.other_other hanswers.1 hc.input hother hself (if_neg x.other_ne)

/-- A user takes bytes out of an input buffer. -/
theorem Inv.retrieve (hi : Inv s) {len : Nat} {b : Buffer}
    (hb : b.content = (s.ends x).conn.inputBuffer.content.drop len) :
    Inv (s.setEnd x { s.ends x with
      closing := { (s.ends x).closing with conn := { (s.ends x).conn with inputBuffer := b } }
      taken := (s.ends x).taken ++ (s.ends x).conn.inputBuffer.content.take len }) := by
  intro y
  rcases x.eq_or_other y with rfl | rfl
  · have h := hi y
    have hother := Function.update_of_ne (f := s.ends) y.other_ne
    constructor <;> simp only [setEnd, Function.update_self, hother]
    · exact h.watched
    · exact ⟨h.flushing.waiting, h.flushing.isOpen, h.flushing.writing⟩
    · exact h.flushed
    · exact h.outgoing
    · exact h.sound
    · exact h.written
    · exact h.read
    · exact h.shut
    · exact h.shutBy
    · exact h.ended
    · exact h.offered
  · have h := hi x.other
    have hsplit : (s.ends x).taken ++ (s.ends x).conn.inputBuffer.content.take len ++ b.content =
        (s.ends x).taken ++ (s.ends x).conn.inputBuffer.content := by
      rw [hb, List.append_assoc, List.take_append_drop]
    have hread := h.read
    have hended := h.ended
    rw [Side.other_other] at hread hended
    have hother := Function.update_of_ne (f := s.ends) x.other_ne
    constructor <;> simp only [setEnd, Side.other_other, Function.update_self, hother]
    · exact h.watched
    · exact h.flushing
    · exact h.flushed
    · exact h.outgoing
    · exact h.sound
    · exact h.written
    · exact hread.trans hsplit.symm
    · exact h.shut
    · exact h.shutBy
    · exact hended
    · exact h.offered

/-- `~TcpConnection` of a side that is disconnected. -/
theorem Inv.destruct (hi : Inv s) (hstate : (s.ends x).conn.state = .kDisconnected) :
    Inv { s.setEnd x { s.ends x with released := true } with
      pipes := Function.update s.pipes x (s.pipes x).close } := by
  have hx := hi x
  have hdown : .connectionCallback false ∈ (s.ends x).conn.log := by
    by_contra hnot
    exact hx.flushing.isOpen hnot hstate
  have hother := Function.update_of_ne (f := s.ends) x.other_ne
  intro y
  rcases x.eq_or_other y with rfl | rfl
  · constructor <;> simp only [setEnd, Function.update_self, hother]
    · exact hx.watched
    · exact hx.flushing
    · exact hx.flushed
    · exact hx.outgoing
    · exact hx.sound.close
    · exact hx.written
    · exact hx.read
    · exact fun _ => rfl
    · exact fun _ => .inr hdown
    · exact fun hended => Pipe.History.atEnd_close (hx.ended hended)
    · exact hx.offered
  · have h := hi x.other
    have hread := h.read
    have hended := h.ended
    rw [Side.other_other] at hread hended
    have hpipe := Function.update_of_ne (f := s.pipes) x.other_ne
    constructor <;> simp only [setEnd, Side.other_other, Function.update_self, hother, hpipe]
    · exact h.watched
    · exact h.flushing
    · exact h.flushed
    · exact h.outgoing
    · exact h.sound
    · exact h.written
    · exact hread
    · exact h.shut
    · exact h.shutBy
    · exact hended
    · exact h.offered

theorem Inv.reset (hi : Inv s) (keep : Side → Nat) :
    Inv { s with pipes := fun y => (s.pipes y).abort (keep y) } := by
  intro y
  have h := hi y
  exact ⟨h.watched, h.flushing, fun hr => (by cases hr), h.outgoing, h.sound.abort _, h.written,
    h.read, h.shut, h.shutBy, fun hended => Pipe.History.atEnd_abort (h.ended hended) _,
    fun hr => (by cases hr)⟩

theorem Inv.of_step {t : Link} (hi : Inv s) {a : Action} (hst : system.Step s a t) : Inv t := by
  obtain ⟨hen, heq⟩ := hst
  cases a with
  | act x a =>
    obtain ⟨closing, hstep, hok⟩ := bind_eq_ok.mp heq
    obtain rfl := Except.ok.inj hok
    exact hi.act hen hstep
  | retrieve x len =>
    obtain ⟨b, hb, hcont⟩ := Buffer.retrieve_ok hen.2.2
    obtain ⟨b', hb', hok⟩ := bind_eq_ok.mp heq
    obtain rfl : b = b' := Except.ok.inj (hb.symm.trans hb')
    obtain rfl := Except.ok.inj hok
    exact hi.retrieve hcont
  | destruct x =>
    obtain ⟨u, hd, hok⟩ := bind_eq_ok.mp heq
    obtain rfl := Except.ok.inj hok
    obtain ⟨v, hcheck, -⟩ := bind_eq_ok.mp hd
    exact hi.destruct (of_check_ok hcheck)
  | reset keep =>
    obtain rfl := Except.ok.inj heq
    exact hi.reset keep

theorem reachable_inv (h : system.Reachable s) : Inv s :=
  h.invariant (fun _ => init_inv) fun _ _ _ hi hst => hi.of_step hst

/-- A pipe that is reset, or being reset, accepts nothing. -/
theorem Inv.written_of_reset {t : Link} (hi : Inv s) {a : Action} (hst : system.Step s a t)
    (x : Side) (hreset : (t.pipes x).pipe.reset = true) :
    (t.pipes x).written = (s.pipes x).written := by
  obtain ⟨hen, heq⟩ := hst
  cases a with
  | act y a =>
    obtain ⟨closing, hstep, hok⟩ := bind_eq_ok.mp heq
    obtain rfl := Except.ok.inj hok
    rcases y.eq_or_other x with rfl | rfl
    · have hpipe : (s.moved x a closing).pipes x =
          outward (s.pipes x) (s.ends x).conn closing.conn := if_pos rfl
      obtain ⟨hwritten, -, hsame, -⟩ :=
        outward_eq (s.pipes x) (s.ends x).conn closing.conn
      rw [hpipe] at hreset ⊢
      have hnot : ¬ (s.pipes x).pipe.Writable := by
        rintro ⟨-, hwhole⟩
        cases hwhole.symm.trans (hsame.symm.trans hreset)
      obtain ⟨w, hw, hnone, hc⟩ := hi.carried hen hstep
      rw [hwritten, accepted_nil hen.2.2.2.2 hw hnone hc hnot, List.append_nil]
    · have hpipe : (s.moved y a closing).pipes y.other =
          inward (s.pipes y.other) (s.ends y).conn a := if_neg y.other_ne
      rw [hpipe]
      rfl
  | retrieve y len =>
    obtain ⟨b, -, hok⟩ := bind_eq_ok.mp heq
    obtain rfl := Except.ok.inj hok
    rfl
  | destruct y =>
    obtain ⟨u, -, hok⟩ := bind_eq_ok.mp heq
    obtain rfl := Except.ok.inj hok
    by_cases hx : x = y
    · subst hx
      change (Function.update s.pipes x (s.pipes x).close x).written = _
      rw [Function.update_self]
      rfl
    · exact congrArg Pipe.History.written (Function.update_of_ne hx ..)
  | reset keep =>
    obtain rfl := Except.ok.inj heq
    rfl

/-! ### Deciding -/

instance (p : Pipe UInt8) : (r : ReadResult) → Decidable (Link.reads p r)
  | .bytes [] => inferInstanceAs (Decidable (_ ∧ _))
  | .bytes (b :: rest) => inferInstanceAs (Decidable (b :: rest <+: p.queue))
  | .failed _ => .isTrue trivial

instance (p : Pipe UInt8) (w : WriteResult) : Decidable (Writes p w) :=
  decidable_of_iff ((p.Writable → ¬ w.Broken) ∧ (¬ p.Writable → w.isFailure) ∧
      (p.shut = true → p.reset = false → w = .failed .EPIPE))
    ⟨fun h => ⟨h.1, h.2.1, h.2.2⟩, fun h => ⟨h.whole, h.failed, h.shut⟩⟩

instance (s : Link) (x : Side) (a : Closing.Action) : Decidable (s.answers x a) :=
  inferInstanceAs (Decidable (_ ∧ _))

instance (s : Link) : (a : Action) → Decidable (system.enabled s a)
  | .act x a =>
      have : Decidable (Closing.enabled (s.ends x).closing a) :=
        inferInstanceAs (Decidable (Closing.system.enabled (s.ends x).closing a))
      inferInstanceAs (Decidable (_ ∧ Closing.enabled (s.ends x).closing a ∧ _))
  | .retrieve _ _ => inferInstanceAs (Decidable (_ ∧ _))
  | .destruct x => inferInstanceAs (Decidable ((s.ends x).released = false ∧
      (s.ends x).conn.tracked = false ∧ _))
  | .reset _ => .isTrue trivial

/-! ### The theorems -/

/-- **No byte is duplicated, reordered, invented or, without a reset, lost.**  What the user of
    the other side has taken out, what is in its input buffer, in the pipe and in the output
    buffer are, in this order, the payloads that `sendInLoop` has taken on; and it takes on all
    that it is given as long as the connection is neither disconnected, shut down nor reset. -/
theorem bytes_conserved (h : system.Reachable s) (x : Side) :
    (∃ lost, (s.ends x.other).taken ++ (s.ends x.other).conn.inputBuffer.content ++
        (s.pipes x).pipe.queue ++ lost ++ (s.ends x).conn.outputBuffer.content =
          (s.ends x).sent.flatten ∧ ((s.pipes x).pipe.reset = false → lost = [])) ∧
      ((s.pipes x).pipe.reset = false → .connectionCallback false ∉ (s.ends x).conn.log →
        .shutdownWrite ∉ (s.ends x).conn.log → (s.ends x).sent = (s.ends x).offered) := by
  have hi := reachable_inv h x
  refine ⟨?_, fun hreset hdown => (hi.offered hreset hdown).2⟩
  obtain ⟨lost, hlost⟩ := hi.sound.order
  refine ⟨lost, ?_, fun hreset => ?_⟩
  · rw [← hi.read, hlost, hi.written]
    exact hi.outgoing
  · have hall := hi.sound.exact hreset
    rw [hall] at hlost
    exact List.append_right_eq_self.mp hlost

/-- One byte with the user, one in the pipe, one in the output buffer. -/
theorem bytes_conserved_partial : ∃ s, system.Reachable s ∧
    (s.ends .right).taken = [1] ∧ (s.pipes .left).pipe.queue = [2] ∧
      (s.ends .left).conn.outputBuffer.content = [3] ∧
        (s.ends .left).sent = (s.ends .left).offered := by
  let start : TcpConnection := (TcpConnection.new true false false 64).established
  let endpoint (point : Point) : Endpoint := ⟨⟨start, point⟩, [], [], [], false, false⟩
  let s₀ : Link :=
    { ends := fun x => if x = .left then endpoint .idle else endpoint .polling
      pipes := fun _ => .empty }
  have hinit : system.init s₀ := by
    refine ⟨fun x => ?_, fun _ => rfl⟩
    cases x <;> exact ⟨⟨true, false, false, 64, rfl⟩, rfl, rfl, rfl, rfl, rfl⟩
  let test (s : Link) : Bool :=
    (s.ends .right).taken = [1] ∧ (s.pipes .left).pipe.queue = [2] ∧
      (s.ends .left).conn.outputBuffer.content = [3] ∧ (s.pipes .left).pipe.reset = false ∧
      .connectionCallback false ∉ (s.ends .left).conn.log ∧
      .shutdownWrite ∉ (s.ends .left).conn.log
  have hrun : (system.exec s₀
      [.act .left (.conn (.call (.send [1, 2, 3]) (.wrote 2))),
        .act .right (.conn (.callbackReturn (.failed .EWOULDBLOCK) (.failed .EWOULDBLOCK))),
        .act .right (.conn (.report { pollin := true })), .act .right .advance,
        .act .right (.conn (.handleEvent (.bytes [1]) (.failed .EWOULDBLOCK))),
        .retrieve .right 1]).any test = true := by decide +kernel
  obtain ⟨s, hs, htest⟩ := exists_of_exec_any _ hinit hrun
  obtain ⟨htaken, hqueue, hout, hreset, hdown, hshut⟩ := of_decide_eq_true htest
  exact ⟨s, hs, htaken, hqueue, hout, (bytes_conserved hs .left).2 hreset hdown hshut⟩

/-- **The end of the stream means everything.**  A side that has read 0 bytes from a stream that
    was not reset has all that the kernel of the other side has accepted; and if the other side
    was not disconnected, that is all that its `sendInLoop` has taken on, a prefix of the payloads
    that came to it. -/
theorem end_of_stream_complete (h : system.Reachable s) (x : Side)
    (hended : (s.ends x.other).ended = true) (hreset : (s.pipes x).pipe.reset = false) :
    (s.ends x.other).taken ++ (s.ends x.other).conn.inputBuffer.content =
        writtenIn (s.ends x).conn.log ∧
      (.connectionCallback false ∉ (s.ends x).conn.log →
        .shutdownWrite ∈ (s.ends x).conn.log ∧ (s.ends x).sent <+: (s.ends x).offered ∧
          (s.ends x.other).taken ++ (s.ends x.other).conn.inputBuffer.content =
            (s.ends x).sent.flatten) := by
  have hi := reachable_inv h x
  have hend := hi.ended hended
  have hall : (s.ends x.other).taken ++ (s.ends x.other).conn.inputBuffer.content =
      writtenIn (s.ends x).conn.log := by
    rw [← hi.read, ← hi.written]
    exact hi.sound.complete hend hreset
  refine ⟨hall, fun hdown => ?_⟩
  have hshut : (s.pipes x).pipe.shut = true :=
    hend.2.resolve_right fun h => by cases hreset.symm.trans h
  have hmem := (hi.shutBy hshut).resolve_right hdown
  refine ⟨hmem, (hi.offered hreset hdown).1, ?_⟩
  rw [hall, ← hi.outgoing, TcpConnection.outgoing, hi.flushed hreset hmem hdown, List.append_nil]

/-- A payload, then `shutdown()`; the other side reads one byte, the other byte, and the end. -/
theorem end_of_stream_complete_shutdown : ∃ s, system.Reachable s ∧
    (s.ends .right).ended = true ∧ (s.ends .right).taken = [1] ∧
      (s.ends .right).taken ++ (s.ends .right).conn.inputBuffer.content =
        (s.ends .left).sent.flatten := by
  let start : TcpConnection := (TcpConnection.new true false false 64).established
  let endpoint (point : Point) : Endpoint := ⟨⟨start, point⟩, [], [], [], false, false⟩
  let s₀ : Link :=
    { ends := fun x => if x = .left then endpoint .idle else endpoint .polling
      pipes := fun _ => .empty }
  have hinit : system.init s₀ := by
    refine ⟨fun x => ?_, fun _ => rfl⟩
    cases x <;> exact ⟨⟨true, false, false, 64, rfl⟩, rfl, rfl, rfl, rfl, rfl⟩
  let wouldBlock : WriteResult := .failed .EWOULDBLOCK
  let test (s : Link) : Bool :=
    (s.ends .right).ended = true ∧ (s.ends .right).taken = [1] ∧
      (s.pipes .left).pipe.reset = false ∧ .connectionCallback false ∉ (s.ends .left).conn.log
  have hrun : (system.exec s₀
      [.act .left (.conn (.call (.send [1, 2]) (.wrote 2))),
        .act .left (.conn (.call .shutdown wouldBlock)),
        .act .right (.conn (.callbackReturn (.failed .EWOULDBLOCK) wouldBlock)),
        .act .right (.conn (.report { pollin := true })), .act .right .advance,
        .act .right (.conn (.handleEvent (.bytes [1]) wouldBlock)), .retrieve .right 1,
        .act .right (.conn (.callbackReturn (.failed .EWOULDBLOCK) wouldBlock)),
        .act .right .advance, .act .right .advance, .act .right .advance,
        .act .right (.conn (.report { pollin := true })), .act .right .advance,
        .act .right (.conn (.handleEvent (.bytes [2]) wouldBlock)),
        .act .right (.conn (.callbackReturn (.failed .EWOULDBLOCK) wouldBlock)),
        .act .right .advance, .act .right .advance, .act .right .advance,
        .act .right (.conn (.report { pollin := true })), .act .right .advance,
        .act .right (.conn (.handleEvent (.bytes []) wouldBlock))]).any test = true := by
    decide +kernel
  obtain ⟨s, hs, htest⟩ := exists_of_exec_any _ hinit hrun
  obtain ⟨hended, htaken, hreset, hdown⟩ := of_decide_eq_true htest
  exact ⟨s, hs, hended, htaken, ((end_of_stream_complete hs .left hended hreset).2 hdown).2.2⟩

end Link

end Kaycc
