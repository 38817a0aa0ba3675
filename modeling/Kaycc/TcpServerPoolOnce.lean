/-
  Kaycc/TcpServerPoolOnce.lean
  ============================
  **Every connection is tracked exactly once, across the loops.**

  The calls that a connection sees are always an initial segment of its `life`:
  established on its own loop, closed there, removed on the base loop, destroyed on
  its own loop.  How long the segment is, its stage, says what is queued for the
  connection (at most one functor, in the loop that the next call is made on) and
  whether `connections_` has it.  A step moves one connection forward and leaves the
  others alone.

  Names are distinct because nothing is cut off: an address, a port and an id below
  `2 ^ 31` fill the buffer of 64 bytes exactly at worst.
-/
import Kaycc.TcpServerPool

namespace Kaycc

open Transition Transition.System
open TcpConnection (StateE)

/-! ### Names -/

theorem decimal_injective {m n : Nat} (h : decimal m = decimal n) : m = n := by
  have hparsed := congrArg (fun digits => Nat.ofDigitChars 10 digits 0) h
  simpa only [decimal, Nat.ofDigitChars_ten_toDigits] using hparsed

theorem decimal_length_le {n k : Nat} (hk : 0 < k) (h : n < 10 ^ k) : (decimal n).length ≤ k :=
  (Nat.length_toDigits_le_iff (by decide) hk).mpr h

/-- An address and its port take at most 51 bytes. -/
theorem InetAddress.toIpPort_length (addr : InetAddress) : addr.toIpPort.length ≤ 51 := by
  have hip := addr.ip_length
  have hport : (decimal addr.port).length ≤ 5 :=
    decimal_length_le (by decide) (Nat.lt_trans addr.port.isLt (by decide))
  have htake := List.length_take_le (64 - addr.ip.length - 1) (':' :: decimal addr.port)
  have htake' := List.length_take_le' (64 - addr.ip.length - 1) (':' :: decimal addr.port)
  simp only [InetAddress.toIpPort, snprintf, List.length_append]
  simp only [List.length_cons] at htake htake'
  omega

namespace TcpServerPool

/-- Nothing is cut off a name. -/
theorem Config.connName_eq (cfg : Config) {id : Nat} (h : id < 2 ^ 31) :
    cfg.connName id = cfg.name ++ ('-' :: cfg.listenAddr.toIpPort ++ '#' :: decimal id) := by
  have haddr := cfg.listenAddr.toIpPort_length
  have hid : (decimal id).length ≤ 10 := decimal_length_le (by decide) (Nat.lt_trans h (by decide))
  have hlen : ('-' :: cfg.listenAddr.toIpPort ++ '#' :: decimal id).length ≤ 64 - 1 := by
    simp only [List.length_append, List.length_cons]
    omega
  rw [Config.connName, snprintf, List.take_of_length_le hlen]

theorem Config.connName_injective (cfg : Config) {m n : Nat} (hm : m < 2 ^ 31) (hn : n < 2 ^ 31)
    (h : cfg.connName m = cfg.connName n) : m = n := by
  rw [cfg.connName_eq hm, cfg.connName_eq hn] at h
  have htail := List.append_cancel_left (List.append_cancel_left h)
  exact decimal_injective (List.cons.inj htail).2

variable {s t : TcpServerPool} {cfg : Config} {conn k : Nat} {key : List Char}
  {loop home : LoopId} {f : Functor}

/-! ### Stages -/

/-- The calls that a connection of this loop sees, in order. -/
def life (conn : Nat) (home : LoopId) : List (LoopId × Event) :=
  [(home, .called (.connectEstablished conn)), (home, .closeCallback conn),
    (.base, .called (.removeConnectionInLoop conn)), (home, .called (.connectDestroyed conn))]

/-- The next of them, when it is the call of a functor. -/
def nextCall (conn : Nat) (home : LoopId) : Nat → Option (LoopId × Functor)
  | 0 => some (home, .connectEstablished conn)
  | 2 => some (.base, .removeConnectionInLoop conn)
  | 3 => some (home, .connectDestroyed conn)
  | _ => none

/-- What `loop` has queued for the connection: at most this one. -/
def queued (next : Option (LoopId × Functor)) (loop : LoopId) : List Functor :=
  match next with
  | some (l, f) => if loop = l then [f] else []
  | none => []

def stateAt : Nat → StateE
  | 0 => .kConnecting
  | 1 => .kConnected
  | _ => .kDisconnected

/-- The functors that a loop has queued for a connection. -/
def pendingOf (s : TcpServerPool) (conn : Nat) (loop : LoopId) : List Functor :=
  (s.functors loop).filter fun f => f.conn = conn

/-- The connection, of this name and this loop, is at stage `k`, and `next` is queued for
    it. -/
structure At (s : TcpServerPool) (conn : Nat) (key : List Char) (home : LoopId) (k : Nat)
    (next : Option (LoopId × Functor)) : Prop where
  known : s.conns[conn]? = some { name := key, loop := home, state := stateAt k }
  stage : k ≤ 4
  calls : s.callsOf conn = (life conn home).take k
  pending : ∀ loop, s.pendingOf conn loop = queued next loop
  mapped : s.connections key = if k < 3 then some conn else none

/-- A step that concerns one connection, of this name, leaves the others alone. -/
structure Concerns (conn : Nat) (key : List Char) (s t : TcpServerPool) : Prop where
  length : t.conns.length = s.conns.length
  nextConnId : t.nextConnId = s.nextConnId
  next : t.next = s.next
  conns : ∀ other, other ≠ conn → t.conns[other]? = s.conns[other]?
  calls : ∀ other, other ≠ conn → t.callsOf other = s.callsOf other
  pending : ∀ other, other ≠ conn → ∀ loop, t.pendingOf other loop = s.pendingOf other loop
  connections : ∀ key', key' ≠ key → t.connections key' = s.connections key'

theorem Concerns.refl (conn : Nat) (key : List Char) (s : TcpServerPool) :
    Concerns conn key s s :=
  ⟨rfl, rfl, rfl, fun _ _ => rfl, fun _ _ => rfl, fun _ _ _ => rfl, fun _ _ => rfl⟩

theorem Concerns.trans {u : TcpServerPool} (h : Concerns conn key s t)
    (h' : Concerns conn key t u) : Concerns conn key s u where
  length := h'.length.trans h.length
  nextConnId := h'.nextConnId.trans h.nextConnId
  next := h'.next.trans h.next
  conns := fun other hne => (h'.conns other hne).trans (h.conns other hne)
  calls := fun other hne => (h'.calls other hne).trans (h.calls other hne)
  pending := fun other hne loop => (h'.pending other hne loop).trans (h.pending other hne loop)
  connections := fun key' hne => (h'.connections key' hne).trans (h.connections key' hne)

/-! ### The parts of a step -/

theorem record_concerns {e : Event} (he : e.conn = conn) (s : TcpServerPool) (loop : LoopId)
    (key : List Char) : Concerns conn key s (s.record loop e) where
  length := rfl
  nextConnId := rfl
  next := rfl
  conns := fun _ _ => rfl
  calls := by
    intro other hne
    simp [callsOf, record, List.filter_append, he, Ne.symm hne]
  pending := fun _ _ _ => rfl
  connections := fun _ _ => rfl

theorem setState_concerns (s : TcpServerPool) (conn : Nat) (state : StateE) (key : List Char) :
    Concerns conn key s (s.setState conn state) where
  length := by simp [setState]
  nextConnId := rfl
  next := rfl
  conns := by
    intro other hne
    simp only [setState]
    rw [List.getElem?_modify_ne _ _ (Ne.symm hne)]
  calls := fun _ _ => rfl
  pending := fun _ _ _ => rfl
  connections := fun _ _ => rfl

/-- A queue is changed, as far as this connection goes. -/
theorem functors_concerns {functors : List Functor} (s : TcpServerPool) (loop : LoopId)
    (key : List Char) (h : ∀ other, other ≠ conn → functors.filter (fun f => f.conn = other) =
      (s.functors loop).filter fun f => f.conn = other) :
    Concerns conn key s { s with functors := Function.update s.functors loop functors } where
  length := rfl
  nextConnId := rfl
  next := rfl
  conns := fun _ _ => rfl
  calls := fun _ _ => rfl
  pending := by
    intro other hne l
    simp only [pendingOf]
    by_cases hl : l = loop
    · subst hl
      rw [Function.update_self]
      exact h other hne
    · rw [Function.update_of_ne hl]
  connections := fun _ _ => rfl

theorem queueInLoop_concerns (hf : f.conn = conn) (s : TcpServerPool) (loop : LoopId)
    (key : List Char) : Concerns conn key s (s.queueInLoop loop f) := by
  refine functors_concerns s loop key ?_
  intro other hne
  simp [List.filter_append, hf, Ne.symm hne]

theorem erase_concerns (s : TcpServerPool) (conn : Nat) (key : List Char) :
    Concerns conn key s { s with connections := Function.update s.connections key none } where
  length := rfl
  nextConnId := rfl
  next := rfl
  conns := fun _ _ => rfl
  calls := fun _ _ => rfl
  pending := fun _ _ _ => rfl
  connections := fun _ hne => Function.update_of_ne hne _ _

theorem At.state_eq {next : Option (LoopId × Functor)} (h : At s conn key home k next) :
    s.state conn = some (stateAt k) := by
  rw [state, h.known]
  rfl

theorem At.name_eq {next : Option (LoopId × Functor)} (h : At s conn key home k next) :
    s.name conn = key := by
  rw [name, h.known]
  rfl

theorem At.getLoop_eq {next : Option (LoopId × Functor)} (h : At s conn key home k next) :
    s.getLoop conn = home := by
  rw [getLoop, h.known]
  rfl

theorem At.queueInLoop (h : At s conn key home k none) (loop : LoopId) (hf : f.conn = conn) :
    At (s.queueInLoop loop f) conn key home k (some (loop, f)) where
  known := h.known
  stage := h.stage
  calls := h.calls
  pending := by
    intro l
    have hnone := h.pending l
    simp only [pendingOf, TcpServerPool.queueInLoop, queued] at hnone ⊢
    by_cases hl : l = loop
    · subst hl
      simp [List.filter_append, hnone, hf]
    · rw [Function.update_of_ne hl, if_neg hl]
      exact hnone
  mapped := h.mapped

/-! ### A functor is taken from a queue -/

/-- The functors of `loop` after its first one has been taken. -/
def dequeued (s : TcpServerPool) (loop : LoopId) (functors : List Functor) : TcpServerPool :=
  { s with functors := Function.update s.functors loop functors }

theorem dequeued_concerns {functors : List Functor} (h : s.functors loop = f :: functors)
    (key : List Char) : Concerns f.conn key s (s.dequeued loop functors) := by
  refine functors_concerns s loop key ?_
  intro other hne
  simp [h, Ne.symm hne]

/-- What a loop calls is the next call of the connection, and nothing else is queued for it. -/
theorem At.dequeued {functors : List Functor}
    (h : At s f.conn key home k (nextCall f.conn home k)) (hf : s.functors loop = f :: functors) :
    nextCall f.conn home k = some (loop, f) ∧
      At (s.dequeued loop functors) f.conn key home k none := by
  have hhead : f :: functors.filter (fun g => g.conn = f.conn) =
      queued (nextCall f.conn home k) loop := by
    rw [← h.pending loop, pendingOf, hf]
    simp
  cases hnext : nextCall f.conn home k with
  | none =>
    rw [hnext] at hhead
    simp [queued] at hhead
  | some call =>
    rcases call with ⟨l, g⟩
    rw [hnext] at hhead
    simp only [queued] at hhead
    split at hhead
    · rename_i hl
      rcases List.cons.inj hhead with ⟨hfg, hrest⟩
      subst hl
      subst hfg
      refine ⟨rfl, h.known, h.stage, h.calls, ?_, h.mapped⟩
      intro l
      simp only [pendingOf, TcpServerPool.dequeued, queued]
      by_cases hl : l = loop
      · subst hl
        rw [Function.update_self]
        exact hrest
      · rw [Function.update_of_ne hl]
        have hother := h.pending l
        simpa only [pendingOf, hnext, queued, if_neg hl] using hother
    · cases hhead

/-! ### The calls -/

/-- A call that the connection sees takes it one stage further. -/
theorem At.record_calls {e : Event} {next : Option (LoopId × Functor)}
    (h : At s conn key home k next) (he : e.conn = conn)
    (hlife : (life conn home)[k]? = some (loop, e)) :
    (s.record loop e).callsOf conn = (life conn home).take (k + 1) := by
  have hcalls := h.calls
  simp only [callsOf] at hcalls
  rw [List.take_add_one, hlife, ← hcalls]
  simp [callsOf, record, List.filter_append, he]

theorem setState_known {key : List Char} {state : StateE}
    (h : s.conns[conn]? = some { name := key, loop := home, state := state }) (state' : StateE) :
    (s.setState conn state').conns[conn]? =
      some { name := key, loop := home, state := state' } := by
  simp only [setState]
  rw [List.getElem?_modify_eq, h]
  rfl

/-- `connectEstablished` finds the connection in `kConnecting`. -/
theorem At.connectEstablished (h : At s conn key home 0 none) :
    ∃ t, s.call home (.connectEstablished conn) = .ok t ∧
      At t conn key home 1 (nextCall conn home 1) ∧ Concerns conn key s t := by
  have hconnecting : (s.record home (.called (.connectEstablished conn))).state conn =
      some .kConnecting := h.state_eq
  refine ⟨(s.record home (.called (.connectEstablished conn))).setState conn .kConnected,
    ?_, ?_, ?_⟩
  · simp only [call, TcpServerPool.connectEstablished]
    rw [check_eq_ok hconnecting]
    rfl
  · constructor
    · exact setState_known h.known .kConnected
    · decide
    · exact h.record_calls rfl rfl
    · exact h.pending
    · exact h.mapped
  · exact (record_concerns (e := .called (.connectEstablished conn)) rfl s home key).trans
      (setState_concerns _ conn _ key)

/-- `removeConnectionInLoop` finds the connection and queues its `connectDestroyed`. -/
theorem At.removeConnectionInLoop (h : At s conn key home 2 none) :
    ∃ t, s.call .base (.removeConnectionInLoop conn) = .ok t ∧
      At t conn key home 3 (nextCall conn home 3) ∧ Concerns conn key s t := by
  let u := s.record .base (.called (.removeConnectionInLoop conn))
  let v := { u with connections := Function.update u.connections key none }
  have hv : At v conn key home 3 none := by
    constructor
    · exact h.known
    · decide
    · exact h.record_calls rfl rfl
    · exact h.pending
    · exact Function.update_self _ _ _
  have hname : u.name conn = key := h.name_eq
  have hfound : u.connections (u.name conn) ≠ none := by
    rw [hname, show u.connections key = some conn from h.mapped]
    exact Option.some_ne_none conn
  refine ⟨v.queueInLoop home (.connectDestroyed conn), ?_, hv.queueInLoop home rfl, ?_⟩
  · have hloop : v.getLoop conn = home := hv.getLoop_eq
    simp only [call, TcpServerPool.removeConnectionInLoop]
    rw [check_eq_ok hfound, hname]
    exact congrArg (fun l => Except.ok (v.queueInLoop l (.connectDestroyed conn))) hloop
  · have hrecord : Concerns conn key s u :=
      record_concerns (e := .called (.removeConnectionInLoop conn)) rfl s .base key
    exact (hrecord.trans (erase_concerns u conn key)).trans
      (queueInLoop_concerns (f := .connectDestroyed conn) rfl v home key)

theorem At.connectDestroyed (h : At s conn key home 3 none) :
    ∃ t, s.call home (.connectDestroyed conn) = .ok t ∧
      At t conn key home 4 (nextCall conn home 4) ∧ Concerns conn key s t := by
  have hstate : (s.record home (.called (.connectDestroyed conn))).state conn =
      some .kDisconnected := h.state_eq
  refine ⟨s.record home (.called (.connectDestroyed conn)), ?_, ?_, ?_⟩
  · simp only [call, TcpServerPool.connectDestroyed]
    rw [hstate]
    rfl
  · constructor
    · exact h.known
    · decide
    · exact h.record_calls rfl rfl
    · exact h.pending
    · exact h.mapped
  · exact record_concerns (e := .called (.connectDestroyed conn)) rfl s home key

/-- The next call, made on its loop, takes the connection one stage further. -/
theorem At.call (h : At s conn key home k none) (hnext : nextCall conn home k = some (loop, f)) :
    ∃ t, s.call loop f = .ok t ∧ At t conn key home (k + 1) (nextCall conn home (k + 1)) ∧
      Concerns conn key s t := by
  match k with
  | 0 =>
    cases hnext
    exact h.connectEstablished
  | 2 =>
    cases hnext
    exact h.removeConnectionInLoop
  | 3 =>
    cases hnext
    exact h.connectDestroyed
  | 1 => cases hnext
  | _ + 4 => cases hnext

/-- `runInLoop` of the next call queues it, or takes the connection one stage further. -/
theorem At.runInLoop (h : At s conn key home k none) (hf : f.conn = conn)
    (hnext : nextCall conn home k = some (loop, f)) (current : LoopId) :
    ∃ t, s.runInLoop current loop f = .ok t ∧
      (∃ k', k' ≤ k + 1 ∧ At t conn key home k' (nextCall conn home k')) ∧
      Concerns conn key s t := by
  simp only [TcpServerPool.runInLoop]
  split
  · rcases h.call hnext with ⟨t, hcall, hat, hconcerns⟩
    exact ⟨t, hcall, ⟨k + 1, Nat.le_refl _, hat⟩, hconcerns⟩
  · refine ⟨s.queueInLoop loop f, rfl, ⟨k, Nat.le_succ k, ?_⟩, queueInLoop_concerns hf s loop key⟩
    rw [hnext]
    exact h.queueInLoop loop hf

/-- A connection that has been established and not closed is removed when it is closed. -/
theorem At.closeCallback (h : At s conn key home 1 (nextCall conn home 1)) :
    ∃ t, s.closeCallback conn = .ok t ∧
      (∃ k, At t conn key home k (nextCall conn home k)) ∧ Concerns conn key s t := by
  let u := (s.record home (.closeCallback conn)).setState conn .kDisconnected
  have hu : At u conn key home 2 none := by
    constructor
    · exact setState_known h.known .kDisconnected
    · decide
    · exact h.record_calls rfl rfl
    · exact h.pending
    · exact h.mapped
  obtain ⟨t, hrun, ⟨k, -, hat⟩, hconcerns⟩ :=
    hu.runInLoop (f := .removeConnectionInLoop conn) rfl rfl home
  refine ⟨t, ?_, ⟨k, hat⟩, ?_⟩
  · have hloop : u.getLoop conn = home := hu.getLoop_eq
    simp only [TcpServerPool.closeCallback, removeConnection, h.getLoop_eq]
    rw [hloop]
    exact hrun
  · have hrecord : Concerns conn key s (s.record home (.closeCallback conn)) :=
      record_concerns (e := .closeCallback conn) rfl s home key
    exact (hrecord.trans (setState_concerns _ conn _ key)).trans hconcerns

/-! ### The invariant -/

/-- The loops that connections are given. -/
def Config.loops (cfg : Config) : List LoopId :=
  if cfg.numThreads = 0 then [.base] else (List.range cfg.numThreads).map .io

/-- Connections are numbered and named in the order in which they are accepted. -/
structure Numbered (cfg : Config) (s : TcpServerPool) : Prop where
  nextConnId : s.nextConnId = s.conns.length + 1
  next : cfg.numThreads ≠ 0 → s.next < cfg.numThreads
  length : s.conns.length < 2 ^ 31
  names : ∀ i c, s.conns[i]? = some c → c.name = cfg.connName (i + 1)
  loops : ∀ (i : Nat) (c : Conn), s.conns[i]? = some c → c.loop ∈ cfg.loops
  unseen : ∀ i, s.conns.length ≤ i → s.callsOf i = [] ∧ ∀ loop, s.pendingOf i loop = []
  mapped : ∀ key i, s.connections key = some i → ∃ c, s.conns[i]? = some c ∧ c.name = key

/-- The connection is at some stage of its life, with its next call queued. -/
def Staged (s : TcpServerPool) (conn : Nat) (c : Conn) : Prop :=
  ∃ k, At s conn c.name c.loop k (nextCall conn c.loop k)

structure Inv (cfg : Config) (s : TcpServerPool) : Prop extends Numbered cfg s where
  stages : ∀ i c, s.conns[i]? = some c → Staged s i c

theorem new_inv (cfg : Config) : Inv cfg new where
  nextConnId := rfl
  next := Nat.pos_of_ne_zero
  length := by decide
  names := fun i c h => by cases h
  loops := fun i c h => by cases h
  unseen := fun _ _ => ⟨rfl, fun _ => rfl⟩
  mapped := fun _ _ h => by cases h
  stages := fun i c h => by cases h

theorem lt_of_known {i : Nat} {c : Conn} (h : s.conns[i]? = some c) : i < s.conns.length :=
  (List.getElem?_eq_some_iff.mp h).1

/-- Two connections have two names. -/
theorem Numbered.name_ne {i j : Nat} {c d : Conn} (h : Numbered cfg s) (hi : s.conns[i]? = some c)
    (hj : s.conns[j]? = some d) (hij : i ≠ j) : c.name ≠ d.name := by
  rw [h.names i c hi, h.names j d hj]
  intro hname
  have hlength := h.length
  have hi := lt_of_known hi
  have hj := lt_of_known hj
  have hid := cfg.connName_injective (by omega) (by omega) hname
  omega

theorem Concerns.at_other {key' : List Char} {i : Nat} {next : Option (LoopId × Functor)}
    (h : Concerns conn key s t) (hat : At s i key' home k next) (hi : i ≠ conn)
    (hkey : key' ≠ key) : At t i key' home k next where
  known := (h.conns i hi).trans hat.known
  stage := hat.stage
  calls := (h.calls i hi).trans hat.calls
  pending := fun loop => (h.pending i hi loop).trans (hat.pending loop)
  mapped := (h.connections key' hkey).trans hat.mapped

/-- No connection changes its name or its loop. -/
theorem Concerns.known_before {c d : Conn} {i : Nat} {next : Option (LoopId × Functor)}
    (h : Concerns conn c.name s t) (hat : At t conn c.name c.loop k next)
    (hknown : s.conns[conn]? = some c) (hd : t.conns[i]? = some d) :
    ∃ d', s.conns[i]? = some d' ∧ d'.name = d.name ∧ d'.loop = d.loop := by
  by_cases hi : i = conn
  · subst hi
    rw [hat.known] at hd
    cases hd
    exact ⟨c, hknown, rfl, rfl⟩
  · rw [h.conns i hi] at hd
    exact ⟨d, hd, rfl, rfl⟩

/-- One connection moves to another stage, the others stay where they are. -/
theorem Numbered.moved (h : Numbered cfg s) {c : Conn} (hknown : s.conns[conn]? = some c)
    (hothers : ∀ i d, i ≠ conn → s.conns[i]? = some d → Staged s i d)
    (hat : At t conn c.name c.loop k (nextCall conn c.loop k))
    (hconcerns : Concerns conn c.name s t) : Inv cfg t where
  nextConnId := by rw [hconcerns.nextConnId, hconcerns.length, h.nextConnId]
  next := by
    intro hpool
    rw [hconcerns.next]
    exact h.next hpool
  length := by
    rw [hconcerns.length]
    exact h.length
  names := by
    intro i d hd
    rcases hconcerns.known_before hat hknown hd with ⟨d', hd', hname, -⟩
    rw [← hname]
    exact h.names i d' hd'
  loops := by
    intro i d hd
    rcases hconcerns.known_before hat hknown hd with ⟨d', hd', -, hloop⟩
    rw [← hloop]
    exact h.loops i d' hd'
  unseen := by
    intro i hi
    rw [hconcerns.length] at hi
    have hne : i ≠ conn := by
      have := lt_of_known hknown
      omega
    refine ⟨(hconcerns.calls i hne).trans (h.unseen i hi).1, fun loop => ?_⟩
    exact (hconcerns.pending i hne loop).trans ((h.unseen i hi).2 loop)
  mapped := by
    intro key' i hkey'
    by_cases hname : key' = c.name
    · rw [hname, hat.mapped] at hkey'
      split at hkey'
      · cases hkey'
        exact ⟨_, hat.known, hname.symm⟩
      · cases hkey'
    · rw [hconcerns.connections key' hname] at hkey'
      rcases h.mapped key' i hkey' with ⟨d, hd, hdname⟩
      have hi : i ≠ conn := by
        rintro rfl
        rw [hknown] at hd
        cases hd
        exact hname hdname.symm
      exact ⟨d, (hconcerns.conns i hi).trans hd, hdname⟩
  stages := by
    intro i d hd
    by_cases hi : i = conn
    · subst hi
      rw [hat.known] at hd
      cases hd
      exact ⟨k, hat⟩
    · rw [hconcerns.conns i hi] at hd
      rcases hothers i d hi hd with ⟨k', hk'⟩
      exact ⟨k', hconcerns.at_other hk' hi (h.name_ne hd hknown hi)⟩

/-! ### The steps -/

/-- The call of `removeConnectionInLoop` for the connection. -/
def removed (conn : Nat) : LoopId × Event := (.base, .called (.removeConnectionInLoop conn))

theorem mem_callsOf {call : LoopId × Event} (h : call.2.conn = conn) :
    call ∈ s.callsOf conn ↔ call ∈ s.log := by
  simp [callsOf, h]

theorem removed_mem_callsOf : removed conn ∈ s.callsOf conn ↔ removed conn ∈ s.log :=
  mem_callsOf rfl

theorem At.removed_iff {next : Option (LoopId × Functor)} (h : At s conn key home k next) :
    removed conn ∈ s.log ↔ 3 ≤ k := by
  rw [← removed_mem_callsOf, h.calls]
  have hk := h.stage
  match k, hk with
  | 0, _ => simp [life]
  | 1, _ => simp [life, removed]
  | 2, _ => simp [life, removed]
  | 3, _ => simp [life, removed]
  | 4, _ => simp [life, removed]

/-- A connection that was accepted before the step has moved, and no other. -/
def Moved (s t : TcpServerPool) : Prop :=
  ∃ conn c k, s.conns[conn]? = some c ∧ At t conn c.name c.loop k (nextCall conn c.loop k) ∧
    Concerns conn c.name s t

theorem Inv.moved (h : Inv cfg s) (hmoved : Moved s t) : Inv cfg t := by
  rcases hmoved with ⟨conn, c, k, hknown, hat, hconcerns⟩
  exact h.toNumbered.moved hknown (fun i d _ hd => h.stages i d hd) hat hconcerns

theorem Inv.callFunctor {functors : List Functor} (h : Inv cfg s)
    (hf : s.functors loop = f :: functors) :
    ∃ t, (s.dequeued loop functors).call loop f = .ok t ∧ Moved s t := by
  have hmem : f ∈ s.pendingOf f.conn loop := by
    simp [pendingOf, hf]
  cases hknown : s.conns[f.conn]? with
  | none =>
    have hunseen := (h.unseen f.conn (List.getElem?_eq_none_iff.mp hknown)).2 loop
    rw [hunseen] at hmem
    cases hmem
  | some c =>
    rcases h.stages f.conn c hknown with ⟨k, hat⟩
    rcases hat.dequeued hf with ⟨hnext, hat⟩
    rcases hat.call hnext with ⟨t, hcall, hat', hconcerns⟩
    exact ⟨t, hcall, f.conn, c, k + 1, hknown, hat', (dequeued_concerns hf c.name).trans hconcerns⟩

theorem Inv.closeCallback (h : Inv cfg s)
    (hestablished : (s.getLoop conn, .called (.connectEstablished conn)) ∈ s.log)
    (hopen : (s.getLoop conn, .closeCallback conn) ∉ s.log) :
    ∃ t, s.closeCallback conn = .ok t ∧ Moved s t := by
  have hseen : (s.getLoop conn, .called (.connectEstablished conn)) ∈ s.callsOf conn :=
    (mem_callsOf rfl).mpr hestablished
  have hunseen : (s.getLoop conn, .closeCallback conn) ∉ s.callsOf conn :=
    fun hmem => hopen ((mem_callsOf rfl).mp hmem)
  cases hknown : s.conns[conn]? with
  | none =>
    rw [(h.unseen conn (List.getElem?_eq_none_iff.mp hknown)).1] at hseen
    cases hseen
  | some c =>
    rcases h.stages conn c hknown with ⟨k, hat⟩
    rw [hat.calls, hat.getLoop_eq] at hseen hunseen
    -- established and not closed: this is stage 1
    match k with
    | 0 => cases hseen
    | 1 =>
      rcases hat.closeCallback with ⟨t, hclose, ⟨k, hat'⟩, hconcerns⟩
      exact ⟨t, hclose, conn, c, k, hknown, hat', hconcerns⟩
    | k + 2 => exact absurd (by simp [life]) hunseen

/-! ### A connection is accepted -/

def accepting (cfg : Config) (s : TcpServerPool) : Conn where
  name := cfg.connName s.nextConnId
  loop := (s.getNextLoop cfg).1
  state := .kConnecting

/-- The server before the new connection is established. -/
def accepted (cfg : Config) (s : TcpServerPool) : TcpServerPool :=
  { s with
    nextConnId := s.nextConnId + 1
    next := (s.getNextLoop cfg).2
    connections := Function.update s.connections (s.accepting cfg).name (some s.conns.length)
    conns := s.conns ++ [s.accepting cfg] }

/-- `getNextLoop` stays among the loops of the pool, and comes round. -/
theorem Numbered.getNextLoop (h : Numbered cfg s) : (s.getNextLoop cfg).1 ∈ cfg.loops ∧
    (cfg.numThreads ≠ 0 → (s.getNextLoop cfg).2 < cfg.numThreads) := by
  by_cases hpool : cfg.numThreads = 0
  · simp [TcpServerPool.getNextLoop, Config.loops, hpool]
  · have hnext := h.next hpool
    simp only [TcpServerPool.getNextLoop, Config.loops, hpool, if_false]
    refine ⟨List.mem_map_of_mem (List.mem_range.mpr hnext), ?_⟩
    intro _
    split <;> omega

theorem newConnection_eq (cfg : Config) (s : TcpServerPool) : s.newConnection cfg =
    (s.accepted cfg).runInLoop .base (s.accepting cfg).loop (.connectEstablished s.conns.length) :=
  rfl

theorem accepted_known (cfg : Config) (s : TcpServerPool) :
    (s.accepted cfg).conns[s.conns.length]? = some (s.accepting cfg) := by
  simp [accepted]

theorem accepted_old {i : Nat} {d : Conn} (hi : i ≠ s.conns.length)
    (hd : (s.accepted cfg).conns[i]? = some d) : s.conns[i]? = some d := by
  have hlt := lt_of_known hd
  simp only [accepted, List.length_append, List.length_singleton] at hlt
  simp only [accepted] at hd
  rwa [List.getElem?_append_left (by omega)] at hd

theorem accepted_of_old {i : Nat} {d : Conn} (hd : s.conns[i]? = some d) :
    (s.accepted cfg).conns[i]? = some d := by
  simp only [accepted]
  rw [List.getElem?_append_left (lt_of_known hd)]
  exact hd

theorem accepted_numbered (h : Inv cfg s) (henabled : s.conns.length + 1 < 2 ^ 31) :
    Numbered cfg (s.accepted cfg) where
  nextConnId := by
    simp only [accepted, List.length_append, List.length_singleton, h.nextConnId]
  next := h.getNextLoop.2
  length := by
    simp only [accepted, List.length_append, List.length_singleton]
    exact henabled
  names := by
    intro i d hd
    by_cases hi : i = s.conns.length
    · subst hi
      rw [accepted_known] at hd
      cases hd
      simp only [accepting, h.nextConnId]
    · exact h.names i d (accepted_old hi hd)
  loops := by
    intro i d hd
    by_cases hi : i = s.conns.length
    · subst hi
      rw [accepted_known] at hd
      cases hd
      exact h.getNextLoop.1
    · exact h.loops i d (accepted_old hi hd)
  unseen := by
    intro i hi
    simp only [accepted, List.length_append, List.length_singleton] at hi
    exact h.unseen i (by omega)
  mapped := by
    intro key i hkey
    simp only [accepted] at hkey
    by_cases hname : key = (s.accepting cfg).name
    · rw [hname, Function.update_self] at hkey
      cases hkey
      exact ⟨_, accepted_known cfg s, hname.symm⟩
    · rw [Function.update_of_ne hname] at hkey
      rcases h.mapped key i hkey with ⟨d, hd, hdname⟩
      exact ⟨d, accepted_of_old hd, hdname⟩

theorem accepted_at (h : Inv cfg s) : At (s.accepted cfg) s.conns.length (s.accepting cfg).name
    (s.accepting cfg).loop 0 none where
  known := accepted_known cfg s
  stage := by decide
  calls := (h.unseen s.conns.length (Nat.le_refl _)).1
  pending := (h.unseen s.conns.length (Nat.le_refl _)).2
  mapped := Function.update_self _ _ _

/-- The connections that were there are where they were. -/
theorem accepted_staged (h : Inv cfg s) (henabled : s.conns.length + 1 < 2 ^ 31) (i : Nat)
    (d : Conn) (hi : i ≠ s.conns.length) (hd : (s.accepted cfg).conns[i]? = some d) :
    Staged (s.accepted cfg) i d := by
  have hname : d.name ≠ (s.accepting cfg).name :=
    (accepted_numbered h henabled).name_ne hd (accepted_known cfg s) hi
  rcases h.stages i d (accepted_old hi hd) with ⟨k, hat⟩
  refine ⟨k, accepted_of_old hat.known, hat.stage, hat.calls, hat.pending, ?_⟩
  exact (Function.update_of_ne hname _ _).trans hat.mapped

/-- The connection that is accepted has the next number, and its name is new. -/
theorem Inv.newConnection (h : Inv cfg s) (henabled : s.conns.length + 1 < 2 ^ 31) :
    ∃ t, s.newConnection cfg = .ok t ∧ Inv cfg t ∧ ∀ i, removed i ∈ t.log → removed i ∈ s.log := by
  obtain ⟨t, hrun, ⟨k, hk, hat⟩, hconcerns⟩ := (accepted_at h).runInLoop
    (f := .connectEstablished s.conns.length) rfl rfl .base
  refine ⟨t, (newConnection_eq cfg s).trans hrun, ?_, ?_⟩
  · exact (accepted_numbered h henabled).moved (accepted_known cfg s)
      (accepted_staged h henabled) hat hconcerns
  · intro i hi
    by_cases hnew : i = s.conns.length
    · subst hnew
      have hremoved := hat.removed_iff.mp hi
      omega
    · rw [← removed_mem_callsOf] at hi ⊢
      rwa [hconcerns.calls i hnew] at hi

/-! ### The runs -/

theorem Inv.step (h : Inv cfg s) {act : Action} (henabled : (system cfg).enabled s act) :
    ∃ t, (system cfg).step s act = .ok t ∧
      (Moved s t ∨ Inv cfg t ∧ ∀ i, removed i ∈ t.log → removed i ∈ s.log) := by
  cases act with
  | newConnection =>
    rcases h.newConnection henabled with ⟨t, hstep, ht⟩
    exact ⟨t, hstep, Or.inr ht⟩
  | callFunctor loop =>
    cases hf : s.functors loop with
    | nil => exact absurd hf henabled
    | cons f functors =>
      rcases h.callFunctor hf with ⟨t, hcall, hmoved⟩
      refine ⟨t, ?_, Or.inl hmoved⟩
      simp only [system, TcpServerPool.step, hf]
      exact hcall
  | closeCallback conn =>
    rcases h.closeCallback henabled.1 henabled.2 with ⟨t, hclose, hmoved⟩
    exact ⟨t, hclose, Or.inl hmoved⟩

theorem inv_reachable (h : (system cfg).Reachable s) : Inv cfg s := by
  refine h.invariant ?_ ?_
  · rintro s rfl
    exact new_inv cfg
  · intro s act t hs hstep
    rcases hs.step hstep.1 with ⟨t', ht', hnext⟩
    rw [hstep.2] at ht'
    cases ht'
    cases hnext with
    | inl hmoved => exact hs.moved hmoved
    | inr hnew => exact hnew.1

/-! ### What the invariant says -/

theorem Numbered.names_nodup (h : Numbered cfg s) : (s.conns.map Conn.name).Nodup := by
  rw [List.Nodup, List.pairwise_map, List.pairwise_iff_getElem]
  intro i j hi hj hij
  exact h.name_ne (List.getElem?_eq_getElem hi) (List.getElem?_eq_getElem hj) (Nat.ne_of_lt hij)

/-- `connections_` has what was accepted and not removed. -/
theorem Inv.mapped_iff (h : Inv cfg s) (key : List Char) (i : Nat) :
    s.connections key = some i ↔
      (∃ c, s.conns[i]? = some c ∧ c.name = key) ∧ removed i ∉ s.log := by
  constructor
  · intro hkey
    rcases h.mapped key i hkey with ⟨c, hc, hname⟩
    refine ⟨⟨c, hc, hname⟩, ?_⟩
    rcases h.stages i c hc with ⟨k, hat⟩
    rw [hat.removed_iff]
    intro hk
    have hmapped := hat.mapped
    rw [hname, hkey, if_neg (by omega)] at hmapped
    cases hmapped
  · rintro ⟨⟨c, hc, rfl⟩, hlog⟩
    rcases h.stages i c hc with ⟨k, hat⟩
    rw [hat.removed_iff] at hlog
    rw [hat.mapped, if_pos (by omega)]

/-- A connection that has seen no call has its `connectEstablished` queued. -/
theorem At.calls_prefix (h : At s conn key home k (nextCall conn home k)) :
    s.callsOf conn <+: life conn home ∧
      (s.callsOf conn = [] → s.pendingOf conn home = [.connectEstablished conn]) := by
  refine ⟨?_, ?_⟩
  · rw [h.calls]
    exact List.take_prefix k _
  · intro hnil
    rw [h.calls] at hnil
    cases k with
    | zero =>
      rw [h.pending home]
      simp [nextCall, queued]
    | succ k => cases hnil

/-- `removeConnectionInLoop` erases its own connection, which is there, and no other. -/
theorem Moved.erases (h : Inv cfg s) (hmoved : Moved s t) {i : Nat} (ht : removed i ∈ t.log)
    (hs : removed i ∉ s.log) : s.connections (s.name i) = some i ∧
      t.connections = Function.update s.connections (s.name i) none := by
  rcases hmoved with ⟨conn, c, k, hknown, hat, hconcerns⟩
  by_cases hi : i = conn
  · subst hi
    have hname : s.name i = c.name := by
      rw [name, hknown]
      rfl
    rw [hname]
    refine ⟨(h.mapped_iff c.name i).mpr ⟨⟨c, hknown, rfl⟩, hs⟩, ?_⟩
    funext key
    by_cases hkey : key = c.name
    · have hk := hat.removed_iff.mp ht
      rw [hkey, Function.update_self, hat.mapped, if_neg (by omega)]
    · rw [Function.update_of_ne hkey, hconcerns.connections key hkey]
  · rw [← removed_mem_callsOf] at ht hs
    rw [hconcerns.calls i hi] at ht
    exact absurd ht hs

/-- **Every connection is tracked exactly once.**  In every state that is reached: no two
    connections have one name; `connections_` has those that were accepted and whose
    `removeConnectionInLoop` has not run; a connection has seen, on its own loop and in this
    order, at most one `connectEstablished`, close and `connectDestroyed`, and before the
    first of them its `connectEstablished` is queued there.  No step fails an assertion, and
    one that runs a `removeConnectionInLoop` erases that connection, which was there, and
    nothing else. -/
theorem tracked_once (h : (system cfg).Reachable s) :
    (s.conns.map Conn.name).Nodup ∧
    (∀ key i, s.connections key = some i ↔
      (∃ c, s.conns[i]? = some c ∧ c.name = key) ∧ removed i ∉ s.log) ∧
    (∀ i c, s.conns[i]? = some c → c.loop ∈ cfg.loops ∧ s.callsOf i <+: life i c.loop ∧
      (s.callsOf i = [] → s.pendingOf i c.loop = [.connectEstablished i])) ∧
    ∀ act, (system cfg).enabled s act → ∃ t, (system cfg).step s act = .ok t ∧
      ∀ i, removed i ∈ t.log → removed i ∉ s.log → s.connections (s.name i) = some i ∧
        t.connections = Function.update s.connections (s.name i) none := by
  have hinv := inv_reachable h
  refine ⟨hinv.names_nodup, hinv.mapped_iff, ?_, ?_⟩
  · intro i c hc
    rcases hinv.stages i c hc with ⟨k, hat⟩
    exact ⟨hinv.loops i c hc, hat.calls_prefix⟩
  · intro act henabled
    rcases hinv.step henabled with ⟨t, hstep, hnext⟩
    refine ⟨t, hstep, ?_⟩
    intro i ht hs
    cases hnext with
    | inl hmoved => exact hmoved.erases hinv ht hs
    | inr hnew => exact absurd (hnew.2 i ht) hs

def twoLoops : Config where
  name := ['e', 'c', 'h', 'o']
  listenAddr := ⟨['0', '.', '0', '.', '0', '.', '0'], 2000, by decide⟩
  numThreads := 2

example : twoLoops.connName 12 = "echo-0.0.0.0:2000#12".toList := by decide

/-- Two connections in two loops, the first of which has been closed and removed. -/
theorem tracked_once_two :
    ∃ s, (system twoLoops).exec new
        [.newConnection, .newConnection, .callFunctor (.io 0), .closeCallback 0,
         .callFunctor .base, .callFunctor (.io 1)] = some s ∧
      (s.conns.map Conn.name).Nodup ∧ s.callsOf 1 <+: life 1 (.io 1) := by
  refine ⟨_, rfl, ?_⟩
  have htracked := tracked_once (reachable_of_exec (S := system twoLoops)
    [.newConnection, .newConnection, .callFunctor (.io 0), .closeCallback 0,
     .callFunctor .base, .callFunctor (.io 1)] rfl rfl)
  exact ⟨htracked.1, (htracked.2.2.1 1 _ rfl).2.1⟩

end TcpServerPool

end Kaycc
