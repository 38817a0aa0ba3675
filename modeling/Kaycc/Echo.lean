/-
  Kaycc/Echo.lean
  ===============
  **The echo server and the echo client.**

  `tests/echoserver_unittest.cpp` is the left side of a link and
  `tests/echoclient_unittest.cpp` the right one.  A side's user code is what its
  `onConnection` and `onMessage` do, as a list of `Statement`s: a callback that the
  loop calls adds its statements to the side's `script`, and the loop's thread goes on
  when all of them have been performed.  The other side goes on meanwhile; nobody else
  calls the connections.  `quit` says that `loop_->quit()` has been called, which has
  no further effect here.

  Each side greets the other and returns what it receives.  A word of the server, like
  `exit`, is not in either greeting, so it never comes: the two send each other their
  greetings, again and again (`echo_periodic`), and twelve bytes are always on their
  way (`echo_conserved`).
-/
import Kaycc.Link
import Kaycc.PeriodicWord
import Kaycc.TcpConnectionUndisturbed
import Mathlib.Data.List.Infix

namespace Kaycc

open Transition Transition.System TcpConnection Postcondition PeriodicWord

/-! ### Applications on a link -/

/-- What user code does in a callback. -/
inductive Statement where
  | retrieveAllAsString            -- the message, which onMessage then looks at
  | call (k : Call)
  | quit
deriving DecidableEq, Repr

/-- The callbacks of a side, as what they do. -/
structure Handlers where
  onConnection : List Statement
  onMessage : Bytes → List Statement

/-- What is to be done in a callback that the connection has called. -/
def Handlers.called (h : Handlers) : Event → List Statement
  | .connectionCallback _ => h.onConnection
  | .messageCallback => [.retrieveAllAsString]
  | _ => []

structure Echo where
  link : Link
  script : Side → List Statement
  quit : Side → Bool

namespace Echo

variable (handlers : Side → Handlers) {s t : Echo} {x : Side}

inductive Action where
  | loop (x : Side) (a : Closing.Action)
  | statement (x : Side) (w : WriteResult)
  | destruct (x : Side)
  | reset (keep : Side → Nat)

/-- The steps of a side's loop and of its server. -/
def isLoops : Closing.Action → Bool
  | .conn (.report _) => true
  | .conn (.handleEvent _ _) => true
  | .conn (.callbackReturn _ _) => true
  | .conn (.runFunctor _) => true
  | .advance => true
  | .removeConnectionInLoop => true
  | _ => false

/-- The server's thread takes the connection out of `connections_`, the loop's does the rest. -/
def onLoopThread : Closing.Action → Bool
  | .removeConnectionInLoop => false
  | _ => true

/-- The step of the link that a statement is, if any. -/
def linkAction (s : Echo) (x : Side) (w : WriteResult) : Statement → Option Link.Action
  | .retrieveAllAsString => some (.retrieve x (s.link.ends x).conn.inputBuffer.readableBytes)
  | .call k => some (.act x (.conn (.call k w)))
  | .quit => none

def enabled (s : Echo) : Action → Prop
  | .loop x a => isLoops a = true ∧ (onLoopThread a = true → s.script x = []) ∧
      s.link.enabled (.act x a)
  | .statement x w => ∃ st ∈ (s.script x).head?, ∀ a ∈ s.linkAction x w st, s.link.enabled a
  | .destruct x => s.link.enabled (.destruct x)
  | .reset keep => s.link.enabled (.reset keep)

/-- The events of a side that a step to `link` has added. -/
def newEvents (s : Echo) (x : Side) (link : Link) : List Event :=
  (link.ends x).conn.log.drop (s.link.ends x).conn.log.length

/-- The link has gone on; `rest` is what is left to do, before what has been called. -/
def reacted (s : Echo) (x : Side) (link : Link) (rest : List Statement) : Echo :=
  { s with
    link := link
    script := Function.update s.script x
      (rest ++ (s.newEvents x link).flatMap (handlers x).called) }

def perform (s : Echo) (x : Side) (w : WriteResult) (rest : List Statement) :
    Statement → Except Assertion Echo
  | .retrieveAllAsString => do
      let b := (s.link.ends x).conn.inputBuffer
      let link ← s.link.step (.retrieve x b.readableBytes)
      pure { s with
        link := link
        script := Function.update s.script x ((handlers x).onMessage b.content ++ rest) }
  | .call k => do
      let link ← s.link.step (.act x (.conn (.call k w)))
      pure (s.reacted handlers x link rest)
  | .quit => .ok { s with
      script := Function.update s.script x rest
      quit := Function.update s.quit x true }

def step (s : Echo) : Action → Except Assertion Echo
  | .loop x a => do
      let link ← s.link.step (.act x a)
      pure (s.reacted handlers x link (s.script x))
  | .statement x w => match s.script x with
      | [] => .ok s
      | st :: rest => s.perform handlers x w rest st
  | .destruct x => do
      let link ← s.link.step (.destruct x)
      pure { s with link := link }
  | .reset keep => do
      let link ← s.link.step (.reset keep)
      pure { s with link := link }

def system : System Echo Action Assertion where
  init s := Link.system.init s.link ∧
    ∀ x, s.script x = (handlers x).onConnection ∧ s.quit x = false
  enabled := enabled
  step := step handlers

/-! ### The applications -/

/-- `"hello\n"`, and so on. -/
def hello : Bytes := [104, 101, 108, 108, 111, 10]

def world : Bytes := [119, 111, 114, 108, 100, 10]

def bye : Bytes := [98, 121, 101, 10]

def exitCommand : Bytes := [101, 120, 105, 116, 10]

def quitCommand : Bytes := [113, 117, 105, 116, 10]

def shutdownCommand : Bytes := [115, 104, 117, 116, 100, 111, 119, 110, 10]

def echoServer : Handlers where
  onConnection := [.call (.send hello)]
  onMessage msg :=
    (if msg = exitCommand then [.call (.send bye), .call .shutdown] else []) ++
      (if msg = quitCommand then [.quit] else []) ++ [.call (.send msg)]

def echoClient : Handlers where
  onConnection := [.call (.send world)]
  onMessage msg :=
    if msg = quitCommand then [.call (.send bye), .call .shutdown]
    else if msg = shutdownCommand then [.quit]
    else [.call (.send msg)]

def echo : Side → Handlers
  | .left => echoServer
  | .right => echoClient

def greeting : Side → Bytes
  | .left => hello
  | .right => world

/-! ### Runs of the link -/

variable {handlers}

/-- Applications that greet, and return what they receive as long as it has the letters of the
    greetings. -/
structure Echoes (handlers : Side → Handlers) (greet : Side → Bytes) : Prop where
  greets : ∀ x, (handlers x).onConnection = [.call (.send (greet x))]
  nonempty : ∀ x, greet x ≠ []
  returns : ∀ x msg, (∀ b ∈ msg, b ∈ greet x.other ++ greet x) →
    (handlers x).onMessage msg = [.call (.send msg)]

/-- The payload of a statement, if it has one. -/
def sends : Statement → Bytes
  | .call (.send message) => message
  | _ => []

/-- The statements of an application that echoes. -/
def isEchoing : Statement → Prop
  | .retrieveAllAsString => True
  | .call (.send _) => True
  | _ => False

variable {greet : Side → Bytes} {c c' : TcpConnection}

/-- What the connection of a side that echoes does by itself. -/
structure Calm (c : TcpConnection) : Prop where
  own : ∀ f ∈ c.functors.waiting, f.isOwn
  up : c.state = .kConnected ↔ .connectionCallback false ∉ c.log
  unshut : .connectionCallback false ∉ c.log → .shutdownWrite ∉ c.log

/-- A side that has received `taken` and `offered` its payloads. -/
structure Half (greet : Bytes) (e : Endpoint) (script : List Statement) (h : Pipe.History UInt8) :
    Prop where
  calm : Calm e.conn
  echoing : ∀ st ∈ script, isEchoing st
  offered : e.offered.flatten <+: greet ++ e.taken
  exact : .connectionCallback false ∉ e.conn.log →
    e.offered.flatten ++ script.flatMap sends = greet ++ e.taken
  tail : .connectionCallback false ∉ e.conn.log → script.tail.flatMap sends = []
  sent : h.pipe.reset = false → e.sent <+: e.offered
  written : h.written <+: greet ++ e.taken

structure Inv (greet : Side → Bytes) (s : Echo) : Prop where
  half : ∀ x, Half (greet x) (s.link.ends x) (s.script x) (s.link.pipes x)
  quit : ∀ x, s.quit x = false
  link : Link.system.Reachable s.link

/-! ### One connection -/

theorem Functor.isCalm_of_own {f : Functor} (h : f.isOwn) : f.isCalm := by
  cases f with
  | shutdownInLoop => exact h.elim
  | _ => exact trivial

theorem Calm.undisturbed (h : Calm c) (hs : Undisturbed True c c') : Calm c' := by
  have hkept : c.log ⊆ c'.log := hs.log_prefix.subset
  constructor
  · obtain ⟨fs, hpending, -, hown⟩ := hs.pending
    intro f hf
    rw [SwapQueue.waiting, hs.batch, hpending, ← List.append_assoc] at hf
    exact (List.mem_append.mp hf).elim (h.own f) (hown trivial f)
  · constructor
    · intro hstate hdown
      obtain ⟨hstate', hdown'⟩ := hs.back hstate
      exact h.up.mp hstate' (hdown' hdown)
    · intro hdown
      have hstate := h.up.mpr fun hmem => hdown (hkept hmem)
      exact (hs.connected trivial hstate).resolve_right hdown
  · intro hdown hshut
    have hdown' : .connectionCallback false ∉ c.log := fun hmem => hdown (hkept hmem)
    rcases hs.shutdown trivial (h.up.mpr hdown') hshut with hmem | hmem
    · exact h.unshut hdown' hmem
    · exact hdown hmem

/-- The handling of an event or of a functor, and the return of a callback. -/
theorem Calm.step {a : TcpConnection.Action} (h : Calm c) (ha : isLoops (.conn a) = true)
    (heq : c.step a = .ok c') : Calm c' ∧ c.handed a = none ∧ ∃ es, c'.log = c.log ++ es ∧
      .connectionCallback true ∉ es := by
  have hhead (f : Functor) (hf : f ∈ c.functors.batch.head?) : f.isOwn :=
    h.own f (List.mem_append_left _ (List.mem_of_mem_head? hf))
  have hcalm : a.isCalm c ∧ c.handed a = none ∧ Calm (c.booked a) ∧ (c.booked a).log = c.log := by
    cases a with
    | report revents => exact ⟨trivial, rfl, h, rfl⟩
    | handleEvent r w => exact ⟨trivial, rfl, h, rfl⟩
    | callbackReturn r w => exact ⟨trivial, rfl, h, rfl⟩
    | runFunctor w =>
      refine ⟨fun f hf => Functor.isCalm_of_own (hhead f hf), ?_, ⟨?_, h.up, h.unshut⟩, rfl⟩
      · unfold TcpConnection.handed
        cases hbatch : c.functors.batch with
        | nil => rfl
        | cons f rest =>
          have hown := hhead f (by rw [hbatch]; rfl)
          cases f with
          | sendInLoop message => exact hown.elim
          | _ => rfl
      · intro f hf
        apply h.own f
        rcases List.mem_append.mp hf with hf | hf
        · exact List.mem_append_left _ (List.mem_of_mem_tail hf)
        · exact List.mem_append_right _ hf
    | _ => cases ha
  obtain ⟨hcalm, hhanded, hbooked, hlog⟩ := hcalm
  have hsame := (step_staysUndisturbed c a).of_ok heq
  obtain ⟨es, hes, hup⟩ := hsame.log
  refine ⟨hbooked.undisturbed ?_, hhanded, es, hlog ▸ hes, hup⟩
  exact { hsame with
    pending := by
      obtain ⟨fs, hp, hsends, hown⟩ := hsame.pending
      exact ⟨fs, hp, hsends, fun _ => hown hcalm⟩
    connected := fun _ => hsame.connected hcalm
    shutdown := fun _ => hsame.shutdown hcalm }

/-- A step of a side's loop or of its server; the latter calls nothing. -/
theorem Calm.loop {e e' : Closing} {a : Closing.Action} (h : Calm e.conn)
    (ha : isLoops a = true) (heq : e.step a = .ok e') :
    Calm e'.conn ∧ Link.handed e.conn a = [] ∧ ∃ es, e'.conn.log = e.conn.log ++ es ∧
      .connectionCallback true ∉ es ∧ (onLoopThread a = false → es = []) := by
  cases a with
  | conn a =>
    obtain ⟨c, hc, hok⟩ := bind_eq_ok.mp heq
    obtain rfl := Except.ok.inj hok
    obtain ⟨hcalm, hhanded, es, hlog, hup⟩ := h.step ha hc
    exact ⟨hcalm, by rw [Link.handed, hhanded]; rfl, es, hlog, hup, fun h => by cases h⟩
  | advance =>
    obtain rfl := Except.ok.inj heq
    refine ⟨?_, rfl, [], ?_, List.not_mem_nil, fun _ => rfl⟩
    · change Calm (e.conn.advanced e.point)
      cases e.point with
      | handlingEvents =>
        refine ⟨fun f hf => h.own f (List.mem_append_right _ ?_), h.up, h.unshut⟩
        simpa [advanced, SwapQueue.swap, SwapQueue.waiting] using hf
      | _ => exact h
    · change (e.conn.advanced e.point).log = _
      rw [List.append_nil]
      cases e.point <;> rfl
  | removeConnectionInLoop =>
    obtain ⟨c, hc, hok⟩ := bind_eq_ok.mp heq
    obtain rfl := Except.ok.inj hok
    have hbook : Undisturbed True e.conn { e.conn with removals := e.conn.removals - 1 } :=
      undisturbed_of_eq rfl rfl rfl rfl
    have hsame := hbook.trans ((removeConnectionInLoop_staysUndisturbed _).of_ok hc)
    obtain ⟨_, -, hc⟩ := bind_eq_ok.mp hc
    obtain ⟨_, -, hc⟩ := bind_eq_ok.mp hc
    obtain rfl := Except.ok.inj hc
    exact ⟨h.undisturbed hsame, rfl, [], (List.append_nil _).symm, List.not_mem_nil, fun _ => rfl⟩
  | destroyServer => cases ha

/-- A call of `send()` in a callback. -/
theorem Calm.send {m : Bytes} {w : WriteResult} (h : Calm c)
    (heq : c.step (.call (.send m) w) = .ok c') :
    Calm c' ∧ ∃ es, c'.log = c.log ++ es ∧ .connectionCallback true ∉ es := by
  have hsame : Undisturbed True c c' :=
    (call_staysUndisturbed c (.send m) w fun _ => trivial).of_ok heq
  exact ⟨h.undisturbed hsame, hsame.log⟩

/-! ### What has been called -/

theorem mem_called {es : List Event} (hec : Echoes handlers greet) {st : Statement}
    (hst : st ∈ es.flatMap (handlers x).called) : isEchoing st := by
  obtain ⟨e, he, hmem⟩ := List.mem_flatMap.mp hst
  cases e with
  | connectionCallback up =>
    rw [Handlers.called, hec.greets, List.mem_singleton] at hmem
    exact hmem ▸ trivial
  | messageCallback => exact List.mem_singleton.mp hmem ▸ trivial
  | _ => cases hmem

/-- As long as the connection is up nothing is called that sends. -/
theorem sends_called {es : List Event} (hup : .connectionCallback true ∉ es)
    (hdown : .connectionCallback false ∉ es) :
    (es.flatMap (handlers x).called).flatMap sends = [] := by
  apply List.flatMap_eq_nil_iff.mpr
  intro st hst
  obtain ⟨e, he, hmem⟩ := List.mem_flatMap.mp hst
  cases e with
  | connectionCallback up =>
    cases up with
    | false => exact absurd he hdown
    | true => exact absurd he hup
  | messageCallback => exact List.mem_singleton.mp hmem ▸ rfl
  | _ => cases hmem

/-! ### Steps keep the invariant -/

/-- The stream of a side after a step, when the side itself has been looked at. -/
theorem written_of_step {b : Link.Action} {link : Link} {received : Bytes}
    (hreach : Link.system.Reachable s.link) (hst : Link.system.Step s.link b link)
    (hold : (s.link.pipes x).written <+: received)
    (hnew : (link.pipes x).pipe.reset = false → (link.ends x).sent.flatten <+: received) :
    (link.pipes x).written <+: received := by
  have hhalf := Link.reachable_inv (hreach.step hst) x
  cases hreset : (link.pipes x).pipe.reset with
  | true =>
    rw [(Link.reachable_inv hreach).written_of_reset hst x hreset]
    exact hold
  | false =>
    have hout : (link.pipes x).written <+: (link.ends x).sent.flatten := by
      rw [hhalf.written, ← hhalf.outgoing]
      exact List.prefix_append _ _
    exact hout.trans (hnew hreset)

section Half

variable {g : Bytes} {e : Endpoint} {script rest : List Statement} {p p' : Pipe.History UInt8}
  {closing : Closing} {m : Bytes} {w : WriteResult}

/-- The side is left alone, and nothing is written into its pipe. -/
theorem Half.pipe (h : Half g e script p) (hwritten : p'.written = p.written)
    (hreset : p'.pipe.reset = false → p.pipe.reset = false) : Half g e script p' :=
  { h with
    sent := fun hr => h.sent (hreset hr)
    written := hwritten ▸ h.written }

theorem entered_of_handed {c : TcpConnection} {a : Closing.Action} (h : Link.handed c a = []) :
    Link.entered c a = [] := by
  cases a with
  | conn a =>
    change c.entered a = []
    have hnone : c.handed a = none := by
      cases hh : c.handed a with
      | none => rfl
      | some d =>
        rw [Link.handed, hh] at h
        cases h
    rw [TcpConnection.entered, hnone]
  | _ => rfl

/-- A step of the side's loop or server. -/
theorem Half.loop (h : Half g e script p) (hec : Echoes handlers greet) {a : Closing.Action}
    (ha : isLoops a = true) (hscript : onLoopThread a = true → script = [])
    (heq : e.closing.step a = .ok closing) (hreset : p'.pipe.reset = p.pipe.reset)
    (hwritten : (p'.pipe.reset = false → (Link.stepped e a closing).sent.flatten <+: g ++ e.taken) →
      p'.written <+: g ++ e.taken) :
    Half g (Link.stepped e a closing) (script ++ (closing.conn.log.drop
      e.conn.log.length).flatMap (handlers x).called) p' := by
  have hloop : Calm closing.conn ∧ Link.handed e.conn a = [] ∧ ∃ es, closing.conn.log =
      e.conn.log ++ es ∧ .connectionCallback true ∉ es ∧ (onLoopThread a = false → es = []) :=
    h.calm.loop ha heq
  obtain ⟨hcalm, hhanded, es, hlog, hup, hserver⟩ := hloop
  have hes : closing.conn.log.drop e.conn.log.length = es := by
    rw [hlog, List.drop_left' rfl]
  have hoffered : (Link.stepped e a closing).offered = e.offered := by
    change e.offered ++ Link.handed e.conn a = _
    rw [hhanded, List.append_nil]
  have hsent : (Link.stepped e a closing).sent = e.sent := by
    change e.sent ++ Link.entered e.conn a = _
    rw [entered_of_handed hhanded, List.append_nil]
  have hdowns (hdown : .connectionCallback false ∉ closing.conn.log) :
      .connectionCallback false ∉ e.conn.log ∧ .connectionCallback false ∉ es := by
    rw [hlog, List.mem_append, not_or] at hdown
    exact hdown
  rw [hes]
  constructor
  · exact hcalm
  · intro st hst
    rcases List.mem_append.mp hst with hst | hst
    · exact h.echoing st hst
    · exact mem_called hec hst
  · rw [hoffered]
    exact h.offered
  · intro hdown
    obtain ⟨hdown, hdown'⟩ := hdowns hdown
    rw [hoffered, List.flatMap_append, sends_called hup hdown', List.append_nil]
    exact h.exact hdown
  · intro hdown
    obtain ⟨hdown, hdown'⟩ := hdowns hdown
    cases hthread : onLoopThread a with
    | true =>
      rw [hscript hthread, List.nil_append]
      have hnone : (es.flatMap (handlers x).called).flatMap sends = [] := sends_called hup hdown'
      exact List.flatMap_eq_nil_iff.mpr fun st hst =>
        List.flatMap_eq_nil_iff.mp hnone st (List.mem_of_mem_tail hst)
    | false =>
      rw [hserver hthread, List.flatMap_nil, List.append_nil]
      exact h.tail hdown
  · intro hr
    rw [hoffered, hsent]
    exact h.sent (hreset.symm.trans hr)
  · refine hwritten fun hr => ?_
    rw [hsent]
    exact (List.IsPrefix.flatten (h.sent (hreset.symm.trans hr))).trans h.offered

/-- What `sendInLoop` is given by a `send`, and what it takes on. -/
theorem stepped_send (e : Endpoint) (c : TcpConnection) (m : Bytes) (w : TcpConnection.WriteResult) :
    ∃ ms ns : List Bytes,
      (Link.stepped e (.conn (.call (.send m) w)) { e.closing with conn := c }).offered =
        e.offered ++ ms ∧
      (Link.stepped e (.conn (.call (.send m) w)) { e.closing with conn := c }).sent =
        e.sent ++ ns ∧ ns <+: ms ∧
      ((e.conn.state = .kConnected ∧ ms = [m]) ∨ (e.conn.state ≠ .kConnected ∧ ms = [])) := by
  by_cases hstate : e.conn.state = .kConnected
  · refine ⟨[m], _, ?_, rfl, ?_, .inl ⟨hstate, rfl⟩⟩
    · simp only [Link.stepped, Link.handed, TcpConnection.handed, if_pos hstate]
      rfl
    · simp only [Link.entered, TcpConnection.entered, TcpConnection.handed, if_pos hstate]
      split
      · exact List.prefix_refl _
      · exact List.nil_prefix
  · refine ⟨[], _, ?_, rfl, ?_, .inr ⟨hstate, rfl⟩⟩
    · simp only [Link.stepped, Link.handed, TcpConnection.handed, if_neg hstate]
      rfl
    · simp only [Link.entered, TcpConnection.entered, TcpConnection.handed, if_neg hstate]
      exact List.prefix_refl _

/-- A call of `send()` in a callback; what the link says of a stream that is whole comes in. -/
theorem Half.send (h : Half g e (.call (.send m) :: rest) p) (hec : Echoes handlers greet)
    (heq : e.closing.step (.conn (.call (.send m) w)) = .ok closing)
    (hwhole : p.pipe.reset = false → .connectionCallback false ∉ e.conn.log →
      .shutdownWrite ∉ e.conn.log → e.sent = e.offered)
    (hreset : p'.pipe.reset = p.pipe.reset)
    (hwritten : (p'.pipe.reset = false →
        (Link.stepped e (.conn (.call (.send m) w)) closing).sent.flatten <+: g ++ e.taken) →
      p'.written <+: g ++ e.taken) :
    Half g (Link.stepped e (.conn (.call (.send m) w)) closing) (rest ++ (closing.conn.log.drop
      e.conn.log.length).flatMap (handlers x).called) p' := by
  obtain ⟨c, hc, hok⟩ := bind_eq_ok.mp heq
  obtain rfl := Except.ok.inj hok
  obtain ⟨hcalm, es, hlog, hup⟩ := h.calm.send hc
  have hes : c.log.drop e.conn.log.length = es := by
    rw [hlog]
    exact List.drop_left' rfl
  have hdowns (hdown : .connectionCallback false ∉ c.log) :
      .connectionCallback false ∉ e.conn.log ∧ .connectionCallback false ∉ es := by
    rw [hlog, List.mem_append, not_or] at hdown
    exact hdown
  have hrest (hdown : .connectionCallback false ∉ e.conn.log) : rest.flatMap sends = [] :=
    h.tail hdown
  obtain ⟨ms, ns, hoffered, hsent, hns, hms⟩ := stepped_send e c m w
  have hoffers : (e.offered ++ ms).flatten <+: g ++ e.taken := by
    rcases hms with ⟨hstate, rfl⟩ | ⟨-, rfl⟩
    · have hexact := h.exact (h.calm.up.mp hstate)
      rw [← hexact, List.flatten_append, List.prefix_append_right_inj]
      simp [sends]
    · rw [List.append_nil]
      exact h.offered
  have hsents (hr : p'.pipe.reset = false) : e.sent ++ ns <+: e.offered ++ ms := by
    rw [hreset] at hr
    rcases hms with ⟨hstate, rfl⟩ | ⟨-, rfl⟩
    · have hdown := h.calm.up.mp hstate
      rw [hwhole hr hdown (h.calm.unshut hdown)]
      exact (List.prefix_append_right_inj _).mpr hns
    · rw [List.prefix_nil.mp hns, List.append_nil, List.append_nil]
      exact h.sent hr
  rw [hes]
  constructor
  · exact hcalm
  · intro st hst
    rcases List.mem_append.mp hst with hst | hst
    · exact h.echoing st (.tail _ hst)
    · exact mem_called hec hst
  · rw [hoffered]
    exact hoffers
  · intro hdown
    obtain ⟨hdown, hdown'⟩ := hdowns hdown
    rcases hms with ⟨-, rfl⟩ | ⟨hstate, -⟩
    · have hexact := h.exact hdown
      rw [hoffered, List.flatMap_append, sends_called hup hdown', List.append_nil]
      rw [List.flatMap_cons, ← List.append_assoc] at hexact
      rw [List.flatten_append, List.flatten_singleton]
      exact hexact
    · exact absurd (h.calm.up.mpr hdown) hstate
  · intro hdown
    obtain ⟨hdown, hdown'⟩ := hdowns hdown
    have hnone : (rest ++ es.flatMap (handlers x).called).flatMap sends = [] := by
      rw [List.flatMap_append, hrest hdown, sends_called hup hdown', List.append_nil]
    exact List.flatMap_eq_nil_iff.mpr fun st hst =>
      List.flatMap_eq_nil_iff.mp hnone st (List.mem_of_mem_tail hst)
  · intro hr
    rw [hoffered, hsent]
    exact hsents hr
  · refine hwritten fun hr => ?_
    rw [hsent]
    exact (List.IsPrefix.flatten (hsents hr)).trans hoffers

/-- `onMessage` takes the message out of the input buffer. -/
theorem Half.retrieve {msg : Bytes} {b : Buffer} (h : Half g e (.retrieveAllAsString :: rest) p) :
    Half g { e with
      closing := { e.closing with conn := { e.conn with inputBuffer := b } }
      taken := e.taken ++ msg } ([.call (.send msg)] ++ rest) p := by
  have hgrown : g ++ e.taken <+: g ++ (e.taken ++ msg) := by
    rw [← List.append_assoc]
    exact List.prefix_append _ _
  constructor
  · exact ⟨h.calm.own, h.calm.up, h.calm.unshut⟩
  · intro st hst
    rcases List.mem_append.mp hst with hst | hst
    · rw [List.mem_singleton.mp hst]
      exact trivial
    · exact h.echoing st (.tail _ hst)
  · exact h.offered.trans hgrown
  · intro hdown
    have hexact := h.exact hdown
    have hrest : rest.flatMap sends = [] := h.tail hdown
    rw [List.flatMap_cons, hrest] at hexact
    rw [List.flatMap_append, hrest, ← List.append_assoc g, ← hexact]
    simp [sends]
  · exact fun hdown => h.tail hdown
  · exact h.sent
  · exact h.written.trans hgrown

end Half

/-- **What a side has received repeats the greetings.** -/
theorem Inv.received (hi : Inv greet s) (hec : Echoes handlers greet) (x : Side) :
    ∃ n, (s.link.ends x).taken ++ (s.link.ends x).conn.inputBuffer.content <+:
      power (greet x.other ++ greet x) n := by
  have hread (y : Side) : (s.link.ends y).taken ++ (s.link.ends y).conn.inputBuffer.content <+:
      greet y.other ++ (s.link.ends y.other).taken := by
    have hhalf := Link.reachable_inv hi.link y.other
    have hread := hhalf.read
    rw [Side.other_other] at hread
    rw [← hread]
    exact hhalf.sound.delivered.trans (hi.half y.other).written
  have hback := hread x.other
  rw [Side.other_other] at hback
  have htaken : (s.link.ends x.other).taken <+: greet x ++
      ((s.link.ends x).taken ++ (s.link.ends x).conn.inputBuffer.content) := by
    refine (List.prefix_append _ _).trans (hback.trans ?_)
    exact (List.prefix_append_right_inj _).mpr (List.prefix_append _ _)
  have hne : greet x.other ++ greet x ≠ [] :=
    fun h => hec.nonempty x (List.append_eq_nil_iff.mp h).2
  exact ⟨_, prefix_power hne (unroll (hread x) htaken)⟩

/-- The message that `onMessage` would look at has the letters of the greetings. -/
theorem Inv.returned (hi : Inv greet s) (hec : Echoes handlers greet) (x : Side) :
    (handlers x).onMessage (s.link.ends x).conn.inputBuffer.content =
      [.call (.send (s.link.ends x).conn.inputBuffer.content)] := by
  obtain ⟨n, hn⟩ := hi.received hec x
  exact hec.returns x _ fun b hb => mem_of_prefix_power hn (List.mem_append_right _ hb)

theorem init_inv (hec : Echoes handlers greet) (h : (system handlers).init s) :
    Inv greet s := by
  obtain ⟨hlink, hside⟩ := h
  refine ⟨fun x => ?_, fun x => (hside x).2, ⟨s.link, [], hlink, .nil _⟩⟩
  obtain ⟨⟨oil, wc, hw, hwm, hconn⟩, hoffered, hsent, htaken, -, -⟩ := hlink.1 x
  rw [connectEstablished_eq rfl Channel.new_synced.toWatched] at hconn
  have hc : (s.link.ends x).conn = (new oil wc hw hwm).established := (Except.ok.inj hconn).symm
  have hlog : (new oil wc hw hwm).established.log = [.connectionCallback true] := rfl
  rw [(hside x).1, hec.greets]
  constructor
  · rw [hc]
    refine ⟨fun f hf => (by cases hf), iff_of_true rfl ?_, fun _ => ?_⟩
    · rw [hlog]
      decide
    · rw [hlog]
      decide
  · intro st hst
    rw [List.mem_singleton.mp hst]
    exact trivial
  · rw [hoffered]
    exact List.nil_prefix
  · rw [hoffered, htaken]
    simp [sends]
  · exact fun _ => rfl
  · rw [hsent, hoffered]
    exact fun _ => List.prefix_refl _
  · rw [hlink.2 x]
    exact List.nil_prefix

/-- A step of one side of the link; `hself` is what it makes of the side. -/
theorem Inv.act (hi : Inv greet s) {a : Closing.Action} {closing : Closing}
    {script : List Statement} (hst : Link.system.Step s.link (.act x a) (s.link.moved x a closing))
    (hself : ∀ p' : Pipe.History UInt8, p'.pipe.reset = (s.link.pipes x).pipe.reset →
      ((p'.pipe.reset = false →
          (Link.stepped (s.link.ends x) a closing).sent.flatten <+:
            greet x ++ (s.link.ends x).taken) →
        p'.written <+: greet x ++ (s.link.ends x).taken) →
      Half (greet x) (Link.stepped (s.link.ends x) a closing) script p') :
    Inv greet { s with
      link := s.link.moved x a closing
      script := Function.update s.script x script } := by
  have hends : (s.link.moved x a closing).ends x = Link.stepped (s.link.ends x) a closing :=
    Function.update_self ..
  have hpipe : (s.link.moved x a closing).pipes x =
      Link.outward (s.link.pipes x) (s.link.ends x).conn closing.conn := if_pos rfl
  refine ⟨fun y => ?_, hi.quit, hi.link.step hst⟩
  rcases x.eq_or_other y with rfl | rfl
  · simp only [Function.update_self, hends]
    apply hself
    · rw [hpipe]
      exact (Link.outward_eq _ _ _).2.2.1
    · intro hnew
      refine written_of_step hi.link hst (hi.half y).written fun hr => ?_
      rw [hends]
      exact hnew hr
  · have hother : (s.link.moved x a closing).ends x.other = s.link.ends x.other :=
      Function.update_of_ne x.other_ne ..
    have hpipe : (s.link.moved x a closing).pipes x.other =
        Link.inward (s.link.pipes x.other) (s.link.ends x).conn a := if_neg x.other_ne
    simp only [Function.update_of_ne x.other_ne, hother, hpipe]
    exact (hi.half x.other).pipe rfl id

theorem Inv.loop (hi : Inv greet s) (hec : Echoes handlers greet) {a : Closing.Action}
    {link : Link} (ha : isLoops a = true) (hscript : onLoopThread a = true → s.script x = [])
    (hst : Link.system.Step s.link (.act x a) link) :
    Inv greet (s.reacted handlers x link (s.script x)) := by
  obtain ⟨closing, hstep, hok⟩ := bind_eq_ok.mp hst.2
  obtain rfl := Except.ok.inj hok
  have hends : (s.link.moved x a closing).ends x = Link.stepped (s.link.ends x) a closing :=
    Function.update_self ..
  unfold reacted newEvents
  rw [hends]
  exact hi.act hst fun p' hreset hwritten =>
    (hi.half x).loop hec ha hscript hstep hreset hwritten

theorem Inv.send (hi : Inv greet s) (hec : Echoes handlers greet) {m : Bytes}
    {w : WriteResult} {rest : List Statement} {link : Link}
    (hscript : s.script x = .call (.send m) :: rest)
    (hst : Link.system.Step s.link (.act x (.conn (.call (.send m) w))) link) :
    Inv greet (s.reacted handlers x link rest) := by
  obtain ⟨closing, hstep, hok⟩ := bind_eq_ok.mp hst.2
  obtain rfl := Except.ok.inj hok
  have hends : (s.link.moved x (.conn (.call (.send m) w)) closing).ends x =
      Link.stepped (s.link.ends x) (.conn (.call (.send m) w)) closing := Function.update_self ..
  have hhalf := hi.half x
  rw [hscript] at hhalf
  unfold reacted newEvents
  rw [hends]
  refine hi.act hst fun p' hreset hwritten => hhalf.send hec hstep ?_ hreset hwritten
  exact fun hreset hdown hshut =>
    ((Link.reachable_inv hi.link x).offered hreset hdown).2 hshut

theorem Inv.retrieve (hi : Inv greet s) (hec : Echoes handlers greet)
    {rest : List Statement} {link : Link} (hscript : s.script x = .retrieveAllAsString :: rest)
    (hst : Link.system.Step s.link
      (.retrieve x (s.link.ends x).conn.inputBuffer.readableBytes) link) :
    Inv greet { s with
      link := link
      script := Function.update s.script x
        ((handlers x).onMessage (s.link.ends x).conn.inputBuffer.content ++ rest) } := by
  obtain ⟨b, -, hok⟩ := bind_eq_ok.mp hst.2
  obtain rfl := Except.ok.inj hok
  have hreach := hi.link.step hst
  have hall : (s.link.ends x).conn.inputBuffer.content.take
      (s.link.ends x).conn.inputBuffer.readableBytes =
        (s.link.ends x).conn.inputBuffer.content := by
    rw [← Buffer.length_content]
    exact List.take_length
  rw [hi.returned hec x]
  refine ⟨fun y => ?_, hi.quit, hreach⟩
  rcases x.eq_or_other y with rfl | rfl
  · have hhalf := hi.half y
    rw [hscript] at hhalf
    simp only [Link.setEnd, Function.update_self, hall]
    exact hhalf.retrieve
  · simp only [Link.setEnd, Function.update_of_ne x.other_ne]
    exact hi.half x.other

theorem Inv.destruct (hi : Inv greet s) {link : Link}
    (hst : Link.system.Step s.link (.destruct x) link) : Inv greet { s with link := link } := by
  obtain ⟨u, -, hok⟩ := bind_eq_ok.mp hst.2
  obtain rfl := Except.ok.inj hok
  refine ⟨fun y => ?_, hi.quit, hi.link.step hst⟩
  have h := hi.half y
  rcases x.eq_or_other y with rfl | rfl
  · simp only [Link.setEnd, Function.update_self]
    exact ⟨h.calm, h.echoing, h.offered, h.exact, h.tail, h.sent, h.written⟩
  · simp only [Link.setEnd, Function.update_of_ne x.other_ne]
    exact h

theorem Inv.of_step (hi : Inv greet s) (hec : Echoes handlers greet) {a : Action}
    (hst : (system handlers).Step s a t) : Inv greet t := by
  obtain ⟨hen, heq⟩ := hst
  cases a with
  | loop x a =>
    obtain ⟨link, hlink, hok⟩ := bind_eq_ok.mp heq
    obtain rfl := Except.ok.inj hok
    exact hi.loop hec hen.1 hen.2.1 ⟨hen.2.2, hlink⟩
  | statement x w =>
    obtain ⟨st, hhead, hen⟩ := hen
    obtain ⟨rest, hscript⟩ := List.head?_eq_some_iff.mp hhead
    have hechoing := (hi.half x).echoing st (hscript ▸ List.mem_cons_self)
    simp only [system, step, hscript] at heq
    cases st with
    | retrieveAllAsString =>
      obtain ⟨link, hlink, hok⟩ := bind_eq_ok.mp heq
      obtain rfl := Except.ok.inj hok
      exact hi.retrieve hec hscript ⟨hen _ rfl, hlink⟩
    | call k =>
      obtain ⟨link, hlink, hok⟩ := bind_eq_ok.mp heq
      obtain rfl := Except.ok.inj hok
      cases k with
      | send m => exact hi.send hec hscript ⟨hen _ rfl, hlink⟩
      | _ => exact hechoing.elim
    | quit => exact hechoing.elim
  | destruct x =>
    obtain ⟨link, hlink, hok⟩ := bind_eq_ok.mp heq
    obtain rfl := Except.ok.inj hok
    exact hi.destruct ⟨hen, hlink⟩
  | reset keep =>
    obtain ⟨link, hlink, hok⟩ := bind_eq_ok.mp heq
    obtain rfl := Except.ok.inj hok
    obtain rfl := Except.ok.inj hlink
    exact ⟨fun y => (hi.half y).pipe rfl fun hr => (by cases hr), hi.quit,
      hi.link.step (a := .reset keep) ⟨hen, rfl⟩⟩

theorem reachable_inv (hec : Echoes handlers greet) (h : (system handlers).Reachable s) :
    Inv greet s :=
  h.invariant (fun _ => init_inv hec) fun _ _ _ hi hst => hi.of_step hec hst

/-! ### The echo server and its client -/

theorem echo_echoes : Echoes echo greeting where
  greets x := by cases x <;> rfl
  nonempty x := by
    cases x with
    | left => exact fun h => by cases h
    | right => exact fun h => by cases h
  returns x msg hmsg := by
    have hletters (b : UInt8) (hb : b ∈ msg) : b ∈ hello ++ world := by
      have hmem := hmsg b hb
      cases x with
      | left =>
        exact (List.mem_append.mp hmem).elim (List.mem_append_right _) (List.mem_append_left _)
      | right => exact hmem
    -- each command has a letter that is in neither greeting
    have hne {command : Bytes} (b : UInt8) (hb : b ∈ command) (hnot : b ∉ hello ++ world) :
        msg ≠ command := by
      rintro rfl
      exact hnot (hletters b hb)
    have hexit : msg ≠ exitCommand := hne 120 (by decide) (by decide)
    have hquit : msg ≠ quitCommand := hne 113 (by decide) (by decide)
    have hshutdown : msg ≠ shutdownCommand := hne 115 (by decide) (by decide)
    cases x with
    | left =>
      simp only [echo, echoServer, if_neg hexit, if_neg hquit, List.nil_append]
    | right =>
      simp only [echo, echoClient, if_neg hquit, if_neg hshutdown]

/-- The bytes on their way from `x`: to be sent, in the output buffer, in the pipe, in the other
    side's input buffer. -/
def underWay (s : Echo) (x : Side) : Nat :=
  ((s.script x).flatMap sends).length + (s.link.ends x).conn.outputBuffer.content.length +
    (s.link.pipes x).pipe.queue.length + (s.link.ends x.other).conn.inputBuffer.content.length

/-! ### Deciding -/

instance (s : Echo) (a : Link.Action) : Decidable (s.link.enabled a) :=
  inferInstanceAs (Decidable (Link.system.enabled s.link a))

instance (s : Echo) : (a : Action) → Decidable ((system handlers).enabled s a)
  | .loop x a => inferInstanceAs (Decidable (_ ∧ (onLoopThread a = true → s.script x = []) ∧
      s.link.enabled (.act x a)))
  | .statement x w => inferInstanceAs (Decidable (∃ st ∈ (s.script x).head?,
      ∀ a ∈ s.linkAction x w st, s.link.enabled a))
  | .destruct x => inferInstanceAs (Decidable (s.link.enabled (.destruct x)))
  | .reset keep => inferInstanceAs (Decidable (s.link.enabled (.reset keep)))

/-! ### A run -/

def wouldBlock : WriteResult := .failed .EWOULDBLOCK

/-- Both connections have just been established. -/
def started : Echo :=
  let conn : TcpConnection := (TcpConnection.new true false false 64).established
  { link := ⟨fun _ => ⟨⟨conn, .idle⟩, [], [], [], false, false⟩, fun _ => .empty⟩
    script := fun x => (echo x).onConnection
    quit := fun _ => false }

theorem started_init : (system echo).init started := by
  refine ⟨⟨fun x => ?_, fun _ => rfl⟩, fun x => ⟨rfl, rfl⟩⟩
  exact ⟨⟨true, false, false, 64, rfl⟩, rfl, rfl, rfl, rfl, rfl⟩

/-- The two greet, the client gets the server's greeting and returns it, and the server reads. -/
def returned : List Action :=
  let readable (x : Side) (data : Bytes) : List Action :=
    [.loop x (.conn (.callbackReturn (.failed .EWOULDBLOCK) wouldBlock)), .loop x .advance,
      .loop x (.conn (.report { pollin := true })), .loop x .advance,
      .loop x (.conn (.handleEvent (.bytes data) wouldBlock))]
  [.statement .left (.wrote 6), .statement .right (.wrote 6)] ++ readable .right hello ++
    [.statement .right wouldBlock, .statement .right (.wrote 6)] ++ readable .left (world ++ [104])

/-! ### The theorems -/

/-- **The server and its client send each other their greetings, again and again.**  What a side
    has received is a prefix of the other's greeting and its own, repeated; so `onMessage` would
    return whatever is in the input buffer, and all that user code does is to take messages and
    to send.  No command of either program is ever recognised, nobody quits, and nobody shuts
    down a connection that has not been disconnected. -/
theorem echo_periodic (h : (system echo).Reachable s) (x : Side) :
    (∃ n, (s.link.ends x).taken ++ (s.link.ends x).conn.inputBuffer.content <+:
        power (greeting x.other ++ greeting x) n) ∧
      s.quit x = false ∧
      (.shutdownWrite ∈ (s.link.ends x).conn.log →
        .connectionCallback false ∈ (s.link.ends x).conn.log) ∧
      (∀ st ∈ s.script x, isEchoing st) ∧
      (echo x).onMessage (s.link.ends x).conn.inputBuffer.content =
        [.call (.send (s.link.ends x).conn.inputBuffer.content)] := by
  have hi := reachable_inv echo_echoes h
  refine ⟨hi.received echo_echoes x, hi.quit x, fun hshut => ?_, (hi.half x).echoing,
    hi.returned echo_echoes x⟩
  by_contra hdown
  exact (hi.half x).calm.unshut hdown hshut

/-- The client returns the greeting of the server, of which the first letter has come back. -/
theorem echo_periodic_returned : ∃ s, (system echo).Reachable s ∧
    (s.link.ends .left).taken = world ++ [104] ∧ s.quit .left = false ∧
      (∃ n, world ++ [104] ++ (s.link.ends .left).conn.inputBuffer.content <+:
        power (world ++ hello) n) ∧
      ∀ st ∈ s.script .left, isEchoing st := by
  have hrun : ((system echo).exec started
      (returned ++ [.statement .left wouldBlock, .statement .left (.wrote 3)])).any
        (fun s => decide ((s.link.ends .left).taken = world ++ [104])) = true := by decide +kernel
  obtain ⟨s, hs, htest⟩ := exists_of_exec_any _ started_init hrun
  have htaken := of_decide_eq_true htest
  have hall := echo_periodic hs .left
  rw [htaken] at hall
  exact ⟨s, hs, htaken, hall.2.1, hall.1, hall.2.2.2.1⟩

theorem underWay_eq (hi : Inv greeting s)
    (hdown : .connectionCallback false ∉ (s.link.ends x).conn.log)
    (hreset : (s.link.pipes x).pipe.reset = false) :
    (s.link.ends x.other).taken.length + s.underWay x =
      (greeting x).length + (s.link.ends x).taken.length := by
  have hhalf := Link.reachable_inv hi.link x
  have hshut := (hi.half x).calm.unshut hdown
  have hexact := congrArg List.length ((hi.half x).exact hdown)
  have hpipe := congrArg List.length (hhalf.sound.exact hreset)
  have hread := congrArg List.length hhalf.read
  have hout := congrArg List.length hhalf.outgoing
  rw [TcpConnection.outgoing, (hhalf.offered hreset hdown).2 hshut] at hout
  have hwritten := congrArg List.length hhalf.written
  simp only [List.length_append] at hexact hpipe hread hout
  unfold underWay
  omega

/-- **Nothing is lost or added**: as long as neither side is disconnected and the stream is not
    reset, the bytes on their way are those of the two greetings. -/
theorem echo_conserved (h : (system echo).Reachable s)
    (hdown : ∀ x, .connectionCallback false ∉ (s.link.ends x).conn.log)
    (hreset : ∀ x, (s.link.pipes x).pipe.reset = false) :
    s.underWay .left + s.underWay .right = 12 := by
  have hi := reachable_inv echo_echoes h
  have hleft := underWay_eq hi (hdown .left) (hreset .left)
  have hright := underWay_eq hi (hdown .right) (hreset .right)
  simp only [Side.other, greeting, hello, world, List.length_cons, List.length_nil] at hleft hright
  omega

/-- Seven bytes are at the server, which has not returned them yet, and five in the pipe. -/
theorem echo_conserved_returned : ∃ s, (system echo).Reachable s ∧
    (s.link.pipes .right).pipe.queue.length = 5 ∧ s.underWay .left + s.underWay .right = 12 := by
  let test (s : Echo) : Bool := (s.link.pipes .right).pipe.queue.length = 5 ∧
    (.connectionCallback false ∉ (s.link.ends .left).conn.log ∧
      .connectionCallback false ∉ (s.link.ends .right).conn.log) ∧
    (s.link.pipes .left).pipe.reset = false ∧ (s.link.pipes .right).pipe.reset = false
  have hrun : ((system echo).exec started returned).any test = true := by decide +kernel
  obtain ⟨s, hs, htest⟩ := exists_of_exec_any _ started_init hrun
  obtain ⟨hqueue, hdown, hreset⟩ := of_decide_eq_true htest
  refine ⟨s, hs, hqueue, echo_conserved hs (fun x => ?_) fun x => ?_⟩
  · cases x with
    | left => exact hdown.1
    | right => exact hdown.2
  · cases x with
    | left => exact hreset.1
    | right => exact hreset.2

end Echo

end Kaycc
