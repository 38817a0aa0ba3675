/-
  Kaycc/TcpClientNames.lean
  =========================
  **The names of a client's connections, and which of them are the same.**

  `newConnection` formats `":%s#%d"` into a buffer of 32 bytes: the address and port of
  the peer, and `nextConnId_`.  The colon and the terminating zero leave 30
  characters, and the id comes last, so it is what is cut off.  With ids below
  `2 ^ 31` the number is never negative.

  Whether a name is cut depends on the peer: an address and its port take between 4
  and 51 characters.
-/
import Kaycc.TcpClient
import Kaycc.TcpServerPoolOnce

namespace Kaycc

open Transition Transition.System

/-! ### Texts with a separator -/

section Separated

variable {α : Type*} {sep : α} {as bs : List α}

/-- Two texts, each with its first separator behind `as` and `bs`, agree as far as `n` exactly
    when the parts before it do and what then fits of the parts after it does. -/
theorem take_separated_eq_iff (has : sep ∉ as) (hbs : sep ∉ bs) (cs ds : List α) (n : Nat) :
    (as ++ sep :: cs).take n = (bs ++ sep :: ds).take n ↔
      as.take n = bs.take n ∧ cs.take (n - 1 - as.length) = ds.take (n - 1 - bs.length) := by
  induction as generalizing bs n with
  | nil =>
    cases bs with
    | nil => cases n <;> simp
    | cons b bs =>
      have hb : sep ≠ b := fun h => hbs (h ▸ List.mem_cons_self)
      cases n <;> simp [hb]
  | cons a as ih =>
    have ha : sep ≠ a := fun h => has (h ▸ List.mem_cons_self)
    cases bs with
    | nil => cases n <;> simp [Ne.symm ha]
    | cons b bs =>
      cases n with
      | zero => simp
      | succ n =>
        have has' : sep ∉ as := fun h => has (List.mem_cons_of_mem _ h)
        have hbs' : sep ∉ bs := fun h => hbs (List.mem_cons_of_mem _ h)
        have hlen : ∀ l : List α, n + 1 - 1 - (l.length + 1) = n - 1 - l.length := by
          intro l
          omega
        simp only [List.cons_append, List.take_succ_cons, List.cons.injEq, List.length_cons, hlen,
          ih has' hbs' n, and_assoc]

end Separated

/-! ### Peers -/

/-- What `inet_ntop` writes an address of either family with. -/
def isAddressChar (c : Char) : Bool :=
  ['0', '1', '2', '3', '4', '5', '6', '7', '8', '9', 'a', 'b', 'c', 'd', 'e', 'f', '.',
    ':'].contains c

/-- An address that `inet_ntop` has printed. -/
structure PeerAddress extends InetAddress where
  ip_chars : ip.all isAddressChar = true

theorem decimal_digits {n : Nat} {c : Char} (h : c ∈ decimal n) : c.isDigit = true :=
  Nat.isDigit_of_mem_toDigits (by decide) (by decide) h

/-- The separator is neither in the address nor in the port. -/
theorem PeerAddress.separator (addr : PeerAddress) : '#' ∉ addr.toIpPort := by
  intro h
  simp only [InetAddress.toIpPort, snprintf] at h
  rcases List.mem_append.mp h with hip | hport
  · exact absurd (List.all_eq_true.mp addr.ip_chars _ hip) (by decide)
  · rcases List.mem_cons.mp (List.mem_of_mem_take hport) with hcolon | hdigit
    · exact absurd hcolon (by decide)
    · exact absurd (decimal_digits hdigit) (by decide)

namespace TcpClient

/-! ### `newConnection` -/

/-- `connName`: what `snprintf` leaves in `buf[32]`, behind the client's name. -/
def connName (name : List Char) (peerAddr : PeerAddress) (nextConnId : Nat) : List Char :=
  name ++ snprintf 32 (':' :: peerAddr.toIpPort ++ '#' :: decimal nextConnId)

/-- The names of successive connections, the first of which gets `nextConnId`. -/
def connNames (name : List Char) (nextConnId : Nat) : List PeerAddress → List (List Char)
  | [] => []
  | peerAddr :: peers =>
      connName name peerAddr nextConnId :: connNames name (nextConnId + 1) peers

variable {name : List Char} {peers : List PeerAddress}

@[simp] theorem connNames_length (name : List Char) (k : Nat) (peers : List PeerAddress) :
    (connNames name k peers).length = peers.length := by
  induction peers generalizing k with
  | nil => rfl
  | cons _ _ ih => simp [connNames, ih]

theorem connNames_getElem (k i : Nat) (h : i < peers.length)
    (h' : i < (connNames name k peers).length) :
    (connNames name k peers)[i] = connName name peers[i] (k + i) := by
  induction peers generalizing k i with
  | nil => cases h
  | cons peerAddr peers ih =>
    cases i with
    | zero => rfl
    | succ i =>
      have hnext := ih (k + 1) i (Nat.lt_of_succ_lt_succ h) (Nat.lt_of_succ_lt_succ h')
      rw [Nat.add_right_comm, Nat.add_assoc] at hnext
      exact hnext

theorem connNames_append (name : List Char) (k : Nat) (peers : List PeerAddress)
    (peerAddr : PeerAddress) : connNames name k (peers ++ [peerAddr]) =
      connNames name k peers ++ [connName name peerAddr (k + peers.length)] := by
  induction peers generalizing k with
  | nil => rfl
  | cons _ peers ih =>
    simp only [List.cons_append, connNames, ih, List.length_cons]
    rw [Nat.add_right_comm, Nat.add_assoc]

/-! ### Which names are the same -/

/-- The addresses and ports agree in the first 30 characters, and the ids in as many digits as
    still fit behind them. -/
def Alike (addr addr' : PeerAddress) (id id' : Nat) : Prop :=
  addr.toIpPort.take 30 = addr'.toIpPort.take 30 ∧
    (decimal id).take (29 - addr.toIpPort.length) = (decimal id').take (29 - addr'.toIpPort.length)

instance (addr addr' : PeerAddress) (id id' : Nat) : Decidable (Alike addr addr' id id') :=
  inferInstanceAs (Decidable (_ ∧ _))

theorem connName_eq_iff (name : List Char) (addr addr' : PeerAddress) (id id' : Nat) :
    connName name addr id = connName name addr' id' ↔ Alike addr addr' id id' := by
  simp only [connName, snprintf, List.cons_append]
  rw [List.append_cancel_left_eq, List.take_succ_cons, List.take_succ_cons, List.cons.injEq,
    take_separated_eq_iff addr.separator addr'.separator]
  exact and_iff_right rfl

theorem connNames_pairwise (name : List Char) (peers : List PeerAddress) :
    (connNames name 1 peers).Nodup ↔ ∀ i j (hj : j < peers.length) (hij : i < j),
      connName name peers[i] (i + 1) ≠ connName name peers[j] (j + 1) := by
  rw [List.Nodup, List.pairwise_iff_getElem]
  constructor
  · intro h i j hj hij
    have hj' : j < (connNames name 1 peers).length := by rwa [connNames_length]
    have hne := h i j (Nat.lt_trans hij hj') hj' hij
    rwa [connNames_getElem 1 i (Nat.lt_trans hij hj), connNames_getElem 1 j hj, Nat.add_comm 1 i,
      Nat.add_comm 1 j] at hne
  · intro h i j _ hj' hij
    have hj : j < peers.length := by rwa [connNames_length] at hj'
    rw [connNames_getElem 1 i (Nat.lt_trans hij hj), connNames_getElem 1 j hj, Nat.add_comm 1 i,
      Nat.add_comm 1 j]
    exact h i j hj hij

/-! ### Every run of a client -/

/-- Whether `newConnection` is called. -/
def Action.connects : Action → Bool
  | .connector (.newConnection _) => true
  | _ => false

theorem step_nextConnId {s t : TcpClient} {act : Action} (h : s.step act = .ok t) :
    t.nextConnId = if act.connects = true then s.nextConnId + 1 else s.nextConnId := by
  cases act with
  | closeCallback conn =>
    simp only [step, removeConnection, bind_eq_ok] at h
    obtain ⟨_, _, h⟩ := h
    split at h <;> cases h <;> rfl
  | connector act =>
    simp only [step, bind_eq_ok] at h
    obtain ⟨connector, _, h⟩ := h
    cases act <;> cases h <;> rfl
  | _ => cases h; rfl

/-- A client, the peers of its connections in order, and the names that these were given. -/
structure Named where
  client : TcpClient
  peers : List PeerAddress
  connNames : List (List Char)

/-- A step of the client; `peerAddr` is what `getPeerAddr` returns in `newConnection`. -/
def Named.step (name : List Char) (s : Named) (act : Action) (peerAddr : PeerAddress) :
    Except Assertion Named := do
  let client ← s.client.step act
  if act.connects = true then
    pure
      { client := client
        peers := s.peers ++ [peerAddr]
        connNames := s.connNames ++ [connName name peerAddr s.client.nextConnId] }
  else pure { s with client := client }

def named (name : List Char) : System Named (Action × PeerAddress) Assertion where
  init s := s = { client := new, peers := [], connNames := [] }
  enabled s act := system.enabled s.client act.1
  step s act := s.step name act.1 act.2

/-- The client alone takes the same steps, and its ids count the connections. -/
structure Named.Inv (name : List Char) (s : Named) : Prop where
  client : system.Reachable s.client
  nextConnId : s.client.nextConnId = s.peers.length + 1
  connNames : s.connNames = TcpClient.connNames name 1 s.peers

theorem Named.Inv.step {s t : Named} {act : Action × PeerAddress} (h : s.Inv name)
    (hst : (named name).Step s act t) : t.Inv name := by
  obtain ⟨hen, hstep⟩ := hst
  simp only [named, Named.step, bind_eq_ok] at hstep
  obtain ⟨client, hclient, hstep⟩ := hstep
  have hreach : system.Reachable client := h.client.step ⟨hen, hclient⟩
  have hid := step_nextConnId hclient
  by_cases hconnects : act.1.connects = true
  · rw [if_pos hconnects] at hstep hid
    cases hstep
    refine ⟨hreach, ?_, ?_⟩
    · rw [hid, h.nextConnId, List.length_append, List.length_singleton]
    · rw [connNames_append, h.connNames, h.nextConnId, Nat.add_comm 1]
  · rw [if_neg hconnects] at hstep hid
    cases hstep
    exact ⟨hreach, hid.trans h.nextConnId, h.connNames⟩

/-- **Whatever a client does in between, reconnects included, its connections are named in
    order from 1.** -/
theorem named_connNames {s : Named} (h : (named name).Reachable s) : s.Inv name := by
  refine h.invariant ?_ fun _ _ _ hs hst => hs.step hst
  rintro s rfl
  exact ⟨⟨new, [], rfl, Run.nil new⟩, rfl, rfl⟩

/-! ### One peer -/

/-- Another digit of a power of ten is not seen where it does not fit. -/
theorem decimal_pow_take (k : Nat) :
    (decimal (10 ^ k)).take (k + 1) = (decimal (10 ^ (k + 1))).take (k + 1) := by
  have hlen : k + 1 ≤ (decimal (10 ^ k)).length := by
    cases k with
    | zero => exact Nat.length_toDigits_pos
    | succ k =>
      by_contra hshort
      have hle := Nat.le_of_lt_succ (Nat.lt_of_not_le hshort)
      exact Nat.lt_irrefl _ ((Nat.length_toDigits_le_iff (by decide) (Nat.succ_pos k)).mp hle)
  have hpow : decimal (10 ^ (k + 1)) = decimal (10 ^ k) ++ [Nat.digitChar 0] := by
    have hle : 10 ≤ 10 ^ (k + 1) := Nat.le_self_pow (Nat.succ_ne_zero k) 10
    have hsplit := Nat.toDigits_of_base_le (b := 10) (by decide) hle
    rwa [Nat.pow_succ, Nat.mul_div_cancel _ (by decide), Nat.mul_mod_left, ← Nat.pow_succ] at hsplit
  rw [hpow, List.take_append_of_le_length hlen]

/-- **A client that always connects to one address gives out `10 ^ k - 1` names**, where `k` is
    the number of characters left for the id. -/
theorem connNames_one_peer (name : List Char) (addr : PeerAddress) (n : Nat) :
    (connNames name 1 (List.replicate n addr)).Nodup ↔
      n ≤ 1 ∨ n < 10 ^ (29 - addr.toIpPort.length) := by
  rw [connNames_pairwise]
  simp only [List.length_replicate, List.getElem_replicate, Ne, connName_eq_iff]
  constructor
  · intro h
    by_contra hmany
    rw [not_or, Nat.not_le, Nat.not_lt] at hmany
    obtain ⟨htwo, hmany⟩ := hmany
    cases hk : 29 - addr.toIpPort.length with
    | zero =>
      refine h 0 1 htwo Nat.one_pos ⟨rfl, ?_⟩
      rw [hk, List.take_zero, List.take_zero]
    | succ k =>
      rw [hk] at hmany
      have hpos : 0 < 10 ^ k := Nat.pow_pos (by decide)
      have hlt : 10 ^ k < 10 ^ (k + 1) := Nat.pow_lt_pow_right (by decide) (Nat.lt_succ_self k)
      refine h (10 ^ k - 1) (10 ^ (k + 1) - 1) (by omega) (by omega) ⟨rfl, ?_⟩
      rw [Nat.sub_add_cancel hpos, Nat.sub_add_cancel (Nat.lt_trans hpos hlt), hk]
      exact decimal_pow_take k
  · rintro (hone | hfew) i j hj hij halike
    · omega
    · have hpos : 0 < 29 - addr.toIpPort.length := by
        by_contra hzero
        rw [Nat.eq_zero_of_not_pos hzero] at hfew
        omega
      -- both ids fit, so nothing is cut off
      have hi : (decimal (i + 1)).length ≤ 29 - addr.toIpPort.length :=
        decimal_length_le hpos (by omega)
      have hj' : (decimal (j + 1)).length ≤ 29 - addr.toIpPort.length :=
        decimal_length_le hpos (by omega)
      have hid := halike.2
      rw [List.take_of_length_le hi, List.take_of_length_le hj'] at hid
      have hsame := decimal_injective hid
      omega

/-! ### All names -/

/-- **The names differ exactly when no two connections are alike** in the 30 characters that
    `buf` keeps of their peers and ids. -/
theorem connNames_nodup_iff (name : List Char) (peers : List PeerAddress) :
    (connNames name 1 peers).Nodup ↔ ∀ i j (hj : j < peers.length) (hij : i < j),
      ¬ Alike peers[i] peers[j] (i + 1) (j + 1) := by
  rw [connNames_pairwise]
  simp only [Ne, connName_eq_iff]

def ipv6Peer : PeerAddress where
  ip := "2001:db8:1111:2222:3333:4444:5555:6666".toList
  port := ⟨8080, by decide⟩
  ip_length := by decide
  ip_chars := by decide

/-- Two connections to one IPv6 address. -/
theorem connNames_ipv6_same : ¬ ∀ name peers, peers.length < 2 ^ 31 →
    (connNames name 1 peers).Nodup := by
  intro hclaim
  exact absurd (hclaim "client".toList [ipv6Peer, ipv6Peer] (by decide)) (by decide)

end TcpClient

end Kaycc
