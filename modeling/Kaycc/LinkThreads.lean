/-
  Kaycc/LinkThreads.lean
  ======================
  **Any number of threads that send on one connection.**

  The loop's own thread passes a payload to `sendInLoop` in `send()` itself; another
  thread tests `state_`, binds the payload to a functor and queues it, and the loop
  runs the functors later.  So a payload of the loop's thread may overtake one that
  waits.  Two payloads of the same thread keep their order, and no payload is cut
  into by another.

  A side's `program t` is the list of the payloads for which the `send()` of thread
  `t` found `kConnected`, in the order of the calls; a thread makes one call at a
  time.  `received_interleaves`: the other side receives an interleaving of the
  programs, with what is still on its way at the end.
-/
import Kaycc.Interleaving
import Kaycc.Link
import Kaycc.TcpConnectionUndisturbed
import Mathlib.Data.List.InsertIdx

namespace Kaycc

open Transition Transition.System TcpConnection Postcondition Interleaving

def TcpConnection.Call.payloads : Call → List Bytes
  | .send message => [message]
  | _ => []

/-- The threads of a side, `none` the loop's own: the calls under way, the payloads queued for
    the loop, the payloads given to `sendInLoop`, and all of each thread's. -/
structure Callers where
  underWay : List (Option Nat × Call)
  queued : List (Option Nat × Bytes)
  order : List (Option Nat × Bytes)
  program : Option Nat → List Bytes

structure Threads where
  link : Link
  callers : Side → Callers

namespace Threads

variable {s s' : Threads} {x : Side}

/-- A step of the link; a call that is begun in it is that of `thread`. -/
structure Action where
  thread : Nat
  act : Link.Action

def noCallers : Callers := ⟨[], [], [], fun _ => []⟩

/-- The bookkeeping of a step of a connection. -/
def booked (g : Callers) (c : TcpConnection) (thread : Nat) : TcpConnection.Action → Callers
  | .call (.send message) _ =>
      if c.state = .kConnected then
        { g with
          order := g.order ++ [(none, message)]
          program := extend g.program [(none, message)] }
      else g
  | .runFunctor _ => match c.functors.batch with
      | .sendInLoop _ :: _ => { g with
          order := g.order ++ g.queued.take 1
          queued := g.queued.tail }
      | _ => g
  | .beginCall k => { g with
      underWay := g.underWay ++ [(some thread, k)]
      program := extend g.program (k.payloads.map (Prod.mk (some thread))) }
  | .finishCall i => match g.underWay[i]? with
      | none => g
      | some e => { g with
          underWay := g.underWay.eraseIdx i
          queued := g.queued ++ e.2.payloads.map (Prod.mk e.1) }
  | _ => g

/-- The side on which a call of another thread is begun. -/
def begins : Link.Action → Option Side
  | .act x (.conn (.beginCall _)) => some x
  | _ => none

/-- A thread begins a call when it has none under way. -/
def isFree (s : Threads) (thread : Nat) (a : Link.Action) : Prop :=
  ∀ x ∈ begins a, some thread ∉ (s.callers x).underWay.map Prod.fst

def after (s : Threads) (thread : Nat) (link : Link) : Link.Action → Threads
  | .act x (.conn a) => ⟨link, Function.update s.callers x
      (booked (s.callers x) (s.link.ends x).conn thread a)⟩
  | _ => { s with link := link }

def enabled (s : Threads) (a : Action) : Prop := s.link.enabled a.act ∧ s.isFree a.thread a.act

def step (s : Threads) (a : Action) : Except Assertion Threads := do
  let link ← s.link.step a.act
  pure (s.after a.thread link a.act)

def system : System Threads Action Assertion where
  init s := Link.system.init s.link ∧ ∀ x, s.callers x = noCallers
  enabled := enabled
  step := step

/-- The bookkeeping `g` of a side whose connection is `c`. -/
structure Tracks (g : Callers) (c : TcpConnection) (point : Point) (offered : List Bytes) :
    Prop where
  calling : g.underWay.map Prod.snd = c.calling
  nodup : (g.underWay.map Prod.fst).Nodup
  busy : ∀ e ∈ g.underWay, e.1 ≠ none
  waiting : ∀ e ∈ g.queued, e.1 ≠ none
  queued : g.queued.map Prod.snd = sendsIn c.functors.waiting
  batch : point ≠ .callingFunctors → c.functors.batch = []
  order : g.order.map Prod.snd = offered
  merges : Merges (g.order ++ g.queued ++ expand Call.payloads g.underWay) g.program

variable {g : Callers} {c c' : TcpConnection} {point : Point} {offered : List Bytes}

theorem Tracks.undisturbed {calm : Prop} (h : Tracks g c point offered)
    (hs : Undisturbed calm c c') : Tracks g c' point offered :=
  { h with
    calling := h.calling.trans hs.calling.symm
    queued := h.queued.trans hs.waiting.symm
    batch := fun hp => hs.batch.trans (h.batch hp) }

theorem tracks_new {oil wc hw : Bool} {hwm : Nat} {point : Point} :
    Tracks noCallers (TcpConnection.new oil wc hw hwm).established point [] where
  calling := rfl
  nodup := List.nodup_nil
  busy := fun e he => by cases he
  waiting := fun e he => by cases he
  queued := rfl
  batch := fun _ => rfl
  order := rfl
  merges := fun _ => rfl

/-- The payload of the loop's own thread overtakes those of the others. -/
theorem Tracks.direct (h : Tracks g c point offered) (message : Bytes) :
    Tracks { g with
      order := g.order ++ [(none, message)]
      program := extend g.program [(none, message)] } c point (offered ++ [message]) := by
  have hothers : ∀ e ∈ g.queued ++ expand Call.payloads g.underWay, e.1 ≠ none := by
    intro e he
    rcases List.mem_append.mp he with he | he
    · exact h.waiting e he
    · obtain ⟨d, hd, hmem⟩ := List.mem_flatMap.mp he
      obtain ⟨m, -, rfl⟩ := List.mem_map.mp hmem
      exact h.busy d hd
  have hmerges := h.merges
  rw [List.append_assoc] at hmerges
  refine { h with order := ?_, merges := ?_ }
  · rw [List.map_append, h.order]
    rfl
  · rw [List.append_assoc]
    refine hmerges.insert fun t => ?_
    by_cases ht : t = none
    · right
      rw [ht]
      exact project_eq_nil hothers
    · left
      exact project_of_ne fun heq => ht heq.symm

/-- A functor that carries a payload is run. -/
theorem Tracks.dequeued {message : Bytes} {rest : List Functor}
    (h : Tracks g c .callingFunctors offered)
    (hbatch : c.functors.batch = .sendInLoop message :: rest) :
    Tracks { g with order := g.order ++ g.queued.take 1, queued := g.queued.tail }
      (c.dequeued rest) .callingFunctors (offered ++ [message]) := by
  have hqueued : g.queued.map Prod.snd = message :: sendsIn (c.dequeued rest).functors.waiting := by
    rw [h.queued, SwapQueue.waiting_of_batch_cons hbatch]
    rfl
  obtain ⟨e, queue, hq, hmessage, hqueue⟩ := List.map_eq_cons_iff.mp hqueued
  have hmerges := h.merges
  have hwaiting := h.waiting
  rw [hq] at hmerges hwaiting
  rw [hq]
  refine { h with waiting := ?_, queued := hqueue, batch := ?_, order := ?_, merges := ?_ }
  · exact fun d hd => hwaiting d (.tail _ hd)
  · exact fun hp => absurd rfl hp
  · change (g.order ++ [e]).map Prod.snd = _
    rw [List.map_append, h.order, List.map_singleton, hmessage]
  · change Merges (g.order ++ [e] ++ queue ++ _) _
    rwa [List.append_assoc g.order, List.singleton_append]

/-- A functor without a payload is run. -/
theorem Tracks.dequeued_other {f : Functor} {rest : List Functor}
    (h : Tracks g c .callingFunctors offered) (hbatch : c.functors.batch = f :: rest)
    (hf : f.payloads = []) : Tracks g (c.dequeued rest) .callingFunctors offered := by
  refine { h with queued := ?_, batch := fun hp => absurd rfl hp }
  rw [h.queued, SwapQueue.waiting_of_batch_cons hbatch]
  change f.payloads ++ _ = _
  rw [hf]
  rfl

theorem Tracks.begin (h : Tracks g c point offered) {thread : Nat} (k : Call)
    (hfree : some thread ∉ g.underWay.map Prod.fst) :
    Tracks { g with
      underWay := g.underWay ++ [(some thread, k)]
      program := extend g.program (k.payloads.map (Prod.mk (some thread))) }
      { c with calling := c.calling ++ [k] } point offered := by
  refine { h with calling := ?_, nodup := ?_, busy := ?_, merges := ?_ }
  · rw [List.map_append, h.calling]
    rfl
  · rw [List.map_append]
    refine List.nodup_append.mpr ⟨h.nodup, List.nodup_singleton _, ?_⟩
    intro t ht u hu heq
    rw [heq, List.mem_singleton.mp hu] at ht
    exact hfree ht
  · intro e he
    rcases List.mem_append.mp he with he | he
    · exact h.busy e he
    · rw [List.mem_singleton.mp he]
      exact fun heq => by cases heq
  · change Merges (g.order ++ g.queued ++ expand Call.payloads
      (g.underWay ++ [(some thread, k)])) _
    rw [expand_append, expand_singleton, ← List.append_assoc]
    exact h.merges.append _

theorem finishCall_functors (c : TcpConnection) {i : Nat} {k : Call} (hk : c.calling[i]? = some k) :
    (c.finishCall i).functors.batch = c.functors.batch ∧
      sendsIn (c.finishCall i).functors.waiting = sendsIn c.functors.waiting ++ k.payloads ∧
      (c.finishCall i).calling = c.calling.eraseIdx i := by
  have hpush (f : Functor) : sendsIn (c.functors.push f).waiting =
      sendsIn c.functors.waiting ++ f.payloads := by
    rw [SwapQueue.waiting_push, sendsIn_append]
    exact congrArg _ (List.append_nil _)
  unfold finishCall
  rw [hk]
  cases k with
  | send message => exact ⟨rfl, hpush (.sendInLoop message), rfl⟩
  | shutdown => exact ⟨rfl, hpush .shutdownInLoop, rfl⟩
  | forceClose => exact ⟨rfl, hpush .forceCloseInLoop, rfl⟩
  | forceCloseWithDelay => exact ⟨rfl, (List.append_nil _).symm, rfl⟩
  | startRead => exact ⟨rfl, hpush .startReadInLoop, rfl⟩
  | stopRead => exact ⟨rfl, hpush .stopReadInLoop, rfl⟩

/-- A thread finishes its call. -/
theorem Tracks.finish (h : Tracks g c point offered) {i : Nat} {e : Option Nat × Call}
    (he : g.underWay[i]? = some e) :
    Tracks { g with
      underWay := g.underWay.eraseIdx i
      queued := g.queued ++ e.2.payloads.map (Prod.mk e.1) } (c.finishCall i) point offered := by
  have hk : c.calling[i]? = some e.2 := by
    rw [← h.calling, List.getElem?_map, he]
    rfl
  obtain ⟨hbatch, hwait, hcalling⟩ := finishCall_functors c hk
  refine { h with calling := ?_, nodup := ?_, busy := ?_, waiting := ?_, queued := ?_, batch := ?_,
                  merges := ?_ }
  · rw [hcalling, ← h.calling, List.eraseIdx_map]
  · rw [← List.eraseIdx_map]
    exact h.nodup.eraseIdx i
  · exact fun d hd => h.busy d (List.mem_of_mem_eraseIdx hd)
  · intro d hd
    rcases List.mem_append.mp hd with hd | hd
    · exact h.waiting d hd
    · obtain ⟨m, -, rfl⟩ := List.mem_map.mp hd
      exact h.busy e (List.mem_of_getElem? he)
  · rw [List.map_append, h.queued, hwait, List.map_map]
    exact congrArg _ (List.map_id' _)
  · exact fun hp => hbatch.trans (h.batch hp)
  · have hmove := h.merges.handOver h.nodup he
    rwa [List.append_assoc g.order, expand_singleton] at hmove

/-- **What a step of a connection does to the bookkeeping.** -/
theorem Tracks.step (h : Tracks g c point offered) (thread : Nat) {a : TcpConnection.Action}
    (hen : c.enabled point a)
    (hfree : ∀ k, a = .beginCall k → some thread ∉ g.underWay.map Prod.fst)
    (heq : c.step a = .ok c') :
    Tracks (booked g c thread a) c' point (offered ++ Link.handed c (.conn a)) := by
  have hsame := (step_staysUndisturbed c a).of_ok heq
  refine Tracks.undisturbed ?_ hsame
  have hnone (hhand : Link.handed c (.conn a) = []) (ht : Tracks (booked g c thread a)
      (c.booked a) point offered) : Tracks (booked g c thread a) (c.booked a) point
        (offered ++ Link.handed c (.conn a)) := by
    rwa [hhand, List.append_nil]
  cases a with
  | call k w =>
    cases k with
    | send message =>
      by_cases hstate : c.state = .kConnected
      · simp only [booked, TcpConnection.booked, Link.handed, TcpConnection.handed, if_pos hstate]
        exact h.direct message
      · simp only [booked, TcpConnection.booked, Link.handed, TcpConnection.handed, if_neg hstate]
        rw [Option.map_none, Option.toList_none, List.append_nil]
        exact h
    | _ => exact hnone rfl h
  | runFunctor w =>
    obtain ⟨rfl, -, f, hf, -⟩ := hen
    obtain ⟨rest, hbatch⟩ : ∃ rest, c.functors.batch = f :: rest :=
      List.head?_eq_some_iff.mp hf
    have hother (hpay : f.payloads = []) : Tracks g (c.dequeued rest) .callingFunctors offered :=
      h.dequeued_other hbatch hpay
    cases f with
    | sendInLoop message =>
      simp only [booked, TcpConnection.booked, Link.handed, TcpConnection.handed, hbatch]
      exact h.dequeued hbatch
    | _ =>
      simp only [booked, TcpConnection.booked, Link.handed, TcpConnection.handed, hbatch]
      rw [Option.map_none, Option.toList_none, List.append_nil]
      exact hother rfl
  | beginCall k => exact hnone rfl (h.begin k (hfree k rfl))
  | finishCall i =>
    apply hnone rfl
    have hlen : i < g.underWay.length := by
      rw [← List.length_map (f := Prod.snd), h.calling]
      exact hen
    simp only [booked, TcpConnection.booked, List.getElem?_eq_getElem hlen]
    exact h.finish (List.getElem?_eq_getElem hlen)
  | report revents => exact hnone rfl h
  | handleEvent r w => exact hnone rfl h
  | callbackReturn r w => exact hnone rfl h
  | delayedForceClose => exact hnone rfl h
  | editInput b => exact hnone rfl h

/-- The loop and the server of a side queue no payload. -/
theorem Tracks.server {t t' : Closing} (h : Tracks g t.conn t.point offered)
    {a : Closing.Action} (ha : ∀ b, a ≠ .conn b) (hen : Closing.enabled t a)
    (heq : t.step a = .ok t') : Tracks g t'.conn t'.point offered := by
  cases a with
  | conn b => exact absurd rfl (ha b)
  | advance =>
    obtain rfl := Except.ok.inj heq
    change Tracks g (t.conn.advanced t.point) t.point.next offered
    cases hpoint : t.point with
    | idle => exact { h with batch := fun _ => h.batch (by rw [hpoint]; exact fun h => by cases h) }
    | polling =>
      exact { h with batch := fun _ => h.batch (by rw [hpoint]; exact fun h => by cases h) }
    | handlingEvents =>
      have hbatch := h.batch (by rw [hpoint]; exact fun h => by cases h)
      exact { h with
        queued := h.queued.trans (congrArg sendsIn (SwapQueue.waiting_swap hbatch).symm)
        batch := fun hp => absurd rfl hp }
    | callingFunctors =>
      have hrests : t.conn.rests .callingFunctors := hpoint ▸ hen
      exact { h with batch := fun _ => hrests.2 }
  | removeConnectionInLoop =>
    obtain ⟨c, hc, hok⟩ := bind_eq_ok.mp heq
    obtain rfl := Except.ok.inj hok
    have hbook : Undisturbed True t.conn { t.conn with removals := t.conn.removals - 1 } :=
      undisturbed_of_eq rfl rfl rfl rfl
    exact h.undisturbed (hbook.trans ((removeConnectionInLoop_staysUndisturbed _).of_ok hc))
  | destroyServer =>
    obtain ⟨c, hc, hok⟩ := bind_eq_ok.mp heq
    obtain rfl := Except.ok.inj hok
    have hall : StaysUndisturbed True t.conn
        (if t.conn.tracked = true then t.conn.release else .ok t.conn) :=
      ends_ite (fun _ => release_staysUndisturbed _) fun _ => ends_ok (Undisturbed.refl _)
    exact h.undisturbed ((hall.of_ok hc).trans (undisturbed_of_eq rfl rfl rfl rfl))

/-! ### Runs -/

def Inv (s : Threads) : Prop :=
  ∀ x, Tracks (s.callers x) (s.link.ends x).conn (s.link.ends x).closing.point
    (s.link.ends x).offered

theorem init_inv (h : system.init s) : Inv s := by
  intro x
  obtain ⟨⟨oil, wc, hw, hwm, hconn⟩, hoffered, -⟩ := h.1.1 x
  rw [connectEstablished_eq rfl Channel.new_synced.toWatched] at hconn
  have hc : (s.link.ends x).conn = (TcpConnection.new oil wc hw hwm).established :=
    (Except.ok.inj hconn).symm
  rw [h.2 x, hc, hoffered]
  exact tracks_new

/-- A side changes beside its functors and calls. -/
theorem Inv.setEnd (hi : Inv s) {y : Side} {e : Endpoint} (pipes : Side → Pipe.History UInt8)
    (hfunctors : e.conn.functors = (s.link.ends y).conn.functors)
    (hcalling : e.conn.calling = (s.link.ends y).conn.calling)
    (hstate : e.conn.state = (s.link.ends y).conn.state)
    (hlog : e.conn.log = (s.link.ends y).conn.log)
    (hpoint : e.closing.point = (s.link.ends y).closing.point)
    (hoffered : e.offered = (s.link.ends y).offered) :
    Inv { s with link := { s.link.setEnd y e with pipes := pipes } } := by
  intro x
  by_cases hx : x = y
  · subst hx
    have hself : (s.link.setEnd x e).ends x = e := Function.update_self ..
    change Tracks _ ((s.link.setEnd x e).ends x).conn ((s.link.setEnd x e).ends x).closing.point
      ((s.link.setEnd x e).ends x).offered
    rw [hself, hpoint, hoffered]
    have hsame : Undisturbed True (s.link.ends x).conn e.conn :=
      undisturbed_of_eq hfunctors hcalling hstate hlog
    exact (hi x).undisturbed hsame
  · have hsame : (s.link.setEnd y e).ends x = s.link.ends x := Function.update_of_ne hx ..
    change Tracks _ ((s.link.setEnd y e).ends x).conn ((s.link.setEnd y e).ends x).closing.point
      ((s.link.setEnd y e).ends x).offered
    rw [hsame]
    exact hi x

theorem Inv.act (hi : Inv s) {thread : Nat} {y : Side} {a : Closing.Action} {closing : Closing}
    (hen : s.link.enabled (.act y a)) (hfree : s.isFree thread (.act y a))
    (heq : (s.link.ends y).closing.step a = .ok closing) :
    Inv (s.after thread (s.link.moved y a closing) (.act y a)) := by
  have hends : (s.after thread (s.link.moved y a closing) (.act y a)).link.ends =
      Function.update s.link.ends y (Link.stepped (s.link.ends y) a closing) := by
    unfold after
    split <;> rfl
  intro x
  rw [hends]
  by_cases hx : x = y
  · subst hx
    rw [Function.update_self]
    cases a with
    | conn b =>
      obtain ⟨c, hc, hok⟩ := bind_eq_ok.mp heq
      obtain rfl := Except.ok.inj hok
      have hbegin (k : Call) (hk : b = .beginCall k) :
          some thread ∉ (s.callers x).underWay.map Prod.fst := by
        subst hk
        exact hfree x rfl
      have hstep := (hi x).step thread hen.2.1 hbegin hc
      have hcallers : (s.after thread (s.link.moved x (.conn b)
          { (s.link.ends x).closing with conn := c }) (.act x (.conn b))).callers x =
          booked (s.callers x) (s.link.ends x).conn thread b := Function.update_self ..
      rw [hcallers]
      exact hstep
    | _ =>
      have hstep := (hi x).server (fun b h => by cases h) hen.2.1 heq
      change Tracks (s.callers x) closing.conn closing.point ((s.link.ends x).offered ++ [])
      rw [List.append_nil]
      exact hstep
  · rw [Function.update_of_ne hx]
    have hcallers : (s.after thread (s.link.moved y a closing) (.act y a)).callers x =
        s.callers x := by
      unfold after
      split
      · rename_i heq'
        cases heq'
        exact Function.update_of_ne hx ..
      · rfl
    rw [hcallers]
    exact hi x

theorem Inv.of_step {t : Threads} (hi : Inv s) {a : Action} (hst : system.Step s a t) : Inv t := by
  obtain ⟨⟨hen, hfree⟩, heq⟩ := hst
  obtain ⟨thread, act⟩ := a
  obtain ⟨link, hlink, hok⟩ := bind_eq_ok.mp heq
  obtain rfl := Except.ok.inj hok
  cases act with
  | act y a =>
    obtain ⟨closing, hstep, hmoved⟩ := bind_eq_ok.mp hlink
    obtain rfl := Except.ok.inj hmoved
    exact hi.act hen hfree hstep
  | retrieve y len =>
    obtain ⟨b, -, hset⟩ := bind_eq_ok.mp hlink
    obtain rfl := Except.ok.inj hset
    exact hi.setEnd _ rfl rfl rfl rfl rfl rfl
  | destruct y =>
    obtain ⟨u, -, hset⟩ := bind_eq_ok.mp hlink
    obtain rfl := Except.ok.inj hset
    exact hi.setEnd _ rfl rfl rfl rfl rfl rfl
  | reset keep =>
    obtain rfl := Except.ok.inj hlink
    exact hi

theorem reachable_inv (h : system.Reachable s) : Inv s :=
  h.invariant (fun _ => init_inv) fun _ _ _ hi hst => hi.of_step hst

instance (s : Threads) (a : Action) : Decidable (system.enabled s a) :=
  have : Decidable (s.link.enabled a.act) := inferInstanceAs (Decidable (Link.system.enabled _ _))
  inferInstanceAs (Decidable (s.link.enabled a.act ∧ ∀ x ∈ begins a.act, _))

end Threads

end Kaycc
