import LambGateway.QueueServer.Handshake
import Mathlib.Data.Nat.Find

/-!
# The ports of the connections

Each connection of a queue server gets a socket of its own, which is bound to the next port that
can be bound. The search counts a 16-bit port up and has no other end than success.
-/

namespace LambGateway.QueueServer.ChildServer

open Handshake

/-- What the system grants: whether there is a socket, and the port that a bind to a port gets.
Port 0 stands for any port that is free. -/
structure Host where
  socket : Bool
  bind : UInt16 → Option UInt16
  bind_port : ∀ {p q}, p ≠ 0 → bind p = some q → q = p
  bind_zero : ∀ {q}, bind 0 = some q → q ≠ 0

/-- `lamb_nn_server`: the port that its socket is bound to. -/
def lambNnServer (host : Host) (port : UInt16) : Option UInt16 :=
  if host.socket then host.bind port else none

/-- The loop: one attempt after the other, until one succeeds. -/
def bindNext (attempt : UInt16 → Option UInt16) : Nat → UInt16 → Option (UInt16 × UInt16)
  | 0, _ => none
  | fuel + 1, port =>
    match attempt port with
    | some bound => some (port, bound)
    | none => bindNext attempt fuel (port + 1)

/-- What `lamb_child_server` leaves: its result, `*port`, and the port its socket is bound to. -/
structure Served where
  err : Int32
  port : UInt16
  bound : Option UInt16

/-- The copies in mt, mo and scheduler; `none` while the loop still runs after `fuel` attempts. -/
def childServer (host : Host) (fuel : Nat) (port : UInt16) : Option Served :=
  (bindNext (lambNnServer host) fuel port).map fun r => ⟨0, r.1, some r.2⟩

/-- The copy in delivery makes one socket before the loop. -/
def Delivery.childServer (host : Host) (fuel : Nat) (port : UInt16) : Option Served :=
  if host.socket then (bindNext host.bind fuel port).map fun r => ⟨0, r.1, some r.2⟩
  else some ⟨-1, port, none⟩

def lambChildServer : Server → Host → Nat → UInt16 → Option Served
  | .mt => childServer
  | .mo => childServer
  | .scheduler => childServer
  | .delivery => Delivery.childServer

/-- `unsigned short port = config.port + 1` -/
def startPort (port : Int32) : UInt16 := (port + 1).toUInt32.toUInt16

def Bindable (host : Host) (port : UInt16) : Prop := (lambNnServer host port).isSome = true

/-- The smallest port from `p` on that can be bound. -/
structure Least (host : Host) (p q : UInt16) : Prop where
  le : p ≤ q
  bindable : Bindable host q
  least : ∀ k, p ≤ k → k < q → ¬ Bindable host k

/-- The server gets the smallest port that can be bound, or an error if there is none. -/
def Allocates (server : Server) (host : Host) (p : UInt16) : Prop :=
  ∃ r, (∃ N, ∀ fuel, N ≤ fuel → lambChildServer server host fuel p = some r) ∧
    ((∃ q, p ≤ q ∧ Bindable host q) →
      r.err = 0 ∧ Least host p r.port ∧ r.bound = some r.port) ∧
    ((∀ q, p ≤ q → ¬ Bindable host q) → r.err ≠ 0)

/-! ## The loop -/

theorem bindNext_eq {attempt : UInt16 → Option UInt16} {p q b : UInt16} (hle : p ≤ q)
    (hq : attempt q = some b) (hleast : ∀ k, p ≤ k → k < q → attempt k = none) {fuel : Nat}
    (hfuel : q.toNat - p.toNat < fuel) : bindNext attempt fuel p = some (q, b) := by
  induction fuel generalizing p with
  | zero => exact absurd hfuel (Nat.not_lt_zero _)
  | succ fuel ih =>
    rw [bindNext]
    by_cases hpq : p = q
    · subst hpq
      rw [hq]
    · have hp : p.toNat ≤ q.toNat := UInt16.le_iff_toNat_le.mp hle
      have hne : p.toNat ≠ q.toNat := fun h => hpq (UInt16.toNat_inj.mp h)
      have hq16 := q.toNat_lt
      have hnext : (p + 1).toNat = p.toNat + 1 := by
        rw [UInt16.toNat_add]
        exact Nat.mod_eq_of_lt (by change p.toNat + 1 < 65536; omega)
      have hnone := hleast p (UInt16.le_refl p) (UInt16.lt_iff_toNat_lt.mpr (by omega))
      rw [hnone]
      apply ih
      · rw [UInt16.le_iff_toNat_le, hnext]
        omega
      · intro k hk
        apply hleast k
        rw [UInt16.le_iff_toNat_le] at hk ⊢
        omega
      · omega

/-- Without any port the loop does not end. -/
theorem bindNext_none {attempt : UInt16 → Option UInt16} (h : ∀ k, attempt k = none) (fuel : Nat)
    (p : UInt16) : bindNext attempt fuel p = none := by
  induction fuel generalizing p with
  | zero => rfl
  | succ fuel ih =>
    rw [bindNext, h]
    exact ih (p + 1)

theorem bindNext_sound {attempt : UInt16 → Option UInt16} {fuel : Nat} {p : UInt16}
    {r : UInt16 × UInt16} (h : bindNext attempt fuel p = some r) : attempt r.1 = some r.2 := by
  induction fuel generalizing p with
  | zero => exact nomatch h
  | succ fuel ih =>
    rw [bindNext] at h
    split at h
    · next bound hp =>
      obtain rfl := Option.some.inj h
      exact hp
    · exact ih h

/-! ## The copies -/

theorem lambNnServer_of_socket {host : Host} (h : host.socket = true) :
    lambNnServer host = host.bind := by
  funext port
  rw [lambNnServer, if_pos h]

theorem lambChildServer_of_socket {host : Host} (h : host.socket = true) (server : Server)
    (fuel : Nat) (p : UInt16) :
    lambChildServer server host fuel p = childServer host fuel p := by
  cases server with
  | delivery =>
    change Delivery.childServer host fuel p = _
    rw [Delivery.childServer, if_pos h, childServer, lambNnServer_of_socket h]
  | mt | mo | scheduler => rfl

theorem childServer_some {host : Host} {fuel : Nat} {p : UInt16} {r : Served}
    (h : childServer host fuel p = some r) :
    r.err = 0 ∧ ∃ b, r.bound = some b ∧ lambNnServer host r.port = some b := by
  obtain ⟨found, hfound, rfl⟩ := Option.map_eq_some_iff.mp h
  exact ⟨rfl, found.2, rfl, bindNext_sound hfound⟩

theorem childServer_least {host : Host} {p q b : UInt16} (h : Least host p q)
    (hb : lambNnServer host q = some b) {fuel : Nat} (hfuel : q.toNat - p.toNat < fuel) :
    childServer host fuel p = some ⟨0, q, some b⟩ := by
  have hnone (k : UInt16) (hk : p ≤ k) (hkq : k < q) : lambNnServer host k = none :=
    Option.not_isSome_iff_eq_none.mp (h.least k hk hkq)
  rw [childServer, bindNext_eq h.le hb hnone hfuel]
  rfl

/-- A connection waits for ever if nothing can be bound. -/
theorem childServer_none {host : Host} (h : ∀ q, ¬ Bindable host q) (fuel : Nat) (p : UInt16) :
    childServer host fuel p = none := by
  have hnone (q : UInt16) : lambNnServer host q = none := Option.not_isSome_iff_eq_none.mp (h q)
  rw [childServer, bindNext_none hnone]
  rfl

theorem exists_least {host : Host} {p : UInt16} (h : ∃ q, p ≤ q ∧ Bindable host q) :
    ∃ q, Least host p q := by
  classical
  have hnat : ∃ n, ∃ q : UInt16, q.toNat = n ∧ p ≤ q ∧ Bindable host q := by
    obtain ⟨q, hq⟩ := h
    exact ⟨q.toNat, q, rfl, hq⟩
  obtain ⟨q, hq, hle, hbindable⟩ := Nat.find_spec hnat
  refine ⟨q, hle, hbindable, fun k hk hkq hbound => ?_⟩
  have hlt : k.toNat < Nat.find hnat := hq ▸ UInt16.lt_iff_toNat_lt.mp hkq
  exact Nat.find_min hnat hlt ⟨k, rfl, hk, hbound⟩

theorem allocates_without_socket {host : Host} (hsocket : host.socket = false) (server : Server)
    (p : UInt16) : Allocates server host p ↔ server = .delivery := by
  have hnever (q : UInt16) : ¬ Bindable host q := by
    rw [Bindable, lambNnServer, hsocket]
    exact Bool.false_ne_true
  constructor
  · intro ⟨r, ⟨N, hN⟩, _⟩
    have hrun := hN N (Nat.le_refl N)
    cases server with
    | delivery => rfl
    | mt | mo | scheduler => exact nomatch (childServer_none hnever N p).symm.trans hrun
  · rintro rfl
    refine ⟨⟨-1, p, none⟩, ⟨0, fun fuel _ => ?_⟩, fun ⟨q, _, hq⟩ => absurd hq (hnever q), fun _ => ?_⟩
    · change Delivery.childServer host fuel p = _
      rw [Delivery.childServer, hsocket]
      rfl
    · exact (by decide : (-1 : Int32) ≠ 0)

/-- Port 0 would be the first to be tried, and another port would be bound. -/
theorem bindable_of_allocates {server : Server} {host : Host} {p : UInt16}
    (hsocket : host.socket = true) (h : Allocates server host p) :
    (∃ q, p ≤ q ∧ Bindable host q) ∧ ¬ (p = 0 ∧ Bindable host 0) := by
  obtain ⟨r, ⟨N, hN⟩, hserved, hrefused⟩ := h
  have hrun := hN N (Nat.le_refl N)
  rw [lambChildServer_of_socket hsocket] at hrun
  obtain ⟨herr, b, hb, hbound⟩ := childServer_some hrun
  have hex : ∃ q, p ≤ q ∧ Bindable host q := by
    by_contra hnone
    exact hrefused (fun q hq hq' => hnone ⟨q, hq, hq'⟩) herr
  refine ⟨hex, ?_⟩
  rintro ⟨rfl, hzero⟩
  obtain ⟨-, hleast, hport⟩ := hserved hex
  have hfirst : r.port = 0 := by
    by_contra hne
    exact hleast.least 0 (UInt16.le_refl 0) (UInt16.pos_iff_ne_zero.mpr hne) hzero
  rw [hfirst, lambNnServer_of_socket hsocket] at hbound
  have hsame : b = r.port := Option.some.inj (hb.symm.trans hport)
  exact host.bind_zero hbound (hsame.trans hfirst)

theorem allocates_of_bindable (server : Server) {host : Host} {p : UInt16}
    (hsocket : host.socket = true) (hex : ∃ q, p ≤ q ∧ Bindable host q)
    (hnotzero : ¬ (p = 0 ∧ Bindable host 0)) : Allocates server host p := by
  obtain ⟨q, hq⟩ := exists_least hex
  have hne : q ≠ 0 := by
    rintro rfl
    have hp : p = 0 := by
      have hle := UInt16.le_iff_toNat_le.mp hq.le
      exact UInt16.toNat_inj.mp (Nat.le_zero.mp hle)
    exact hnotzero ⟨hp, hq.bindable⟩
  obtain ⟨b, hb⟩ := Option.isSome_iff_exists.mp hq.bindable
  have hbq : b = q := by
    rw [lambNnServer_of_socket hsocket] at hb
    exact host.bind_port hne hb
  subst hbq
  refine ⟨⟨0, b, some b⟩, ⟨b.toNat - p.toNat + 1, fun fuel hfuel => ?_⟩, fun _ => ?_, ?_⟩
  · rw [lambChildServer_of_socket hsocket]
    exact childServer_least hq hb hfuel
  · exact ⟨rfl, hq, rfl⟩
  · exact fun hnone => absurd hq.bindable (hnone b hq.le)

/-- A server gets its port if and only if a port from the start on can be bound, which must not be
port 0; without a socket delivery alone reports an error. -/
theorem allocates_iff (server : Server) (host : Host) (p : UInt16) :
    Allocates server host p ↔
      (∃ q, p ≤ q ∧ Bindable host q) ∧ ¬ (p = 0 ∧ Bindable host 0) ∨
        server = .delivery ∧ host.socket = false := by
  cases hsocket : host.socket with
  | false =>
    have hnone : ¬ ∃ q, p ≤ q ∧ Bindable host q := by
      rintro ⟨q, -, hq⟩
      rw [Bindable, lambNnServer, hsocket] at hq
      exact Bool.false_ne_true hq
    rw [allocates_without_socket hsocket]
    constructor
    · exact fun h => .inr ⟨h, rfl⟩
    · rintro (⟨hex, -⟩ | ⟨h, -⟩)
      · exact absurd hex hnone
      · exact h
  | true =>
    constructor
    · exact fun h => .inl (bindable_of_allocates hsocket h)
    · rintro (⟨hex, hnotzero⟩ | ⟨-, hfalse⟩)
      · exact allocates_of_bindable server hsocket hex hnotzero
      · exact absurd hfalse.symm Bool.false_ne_true

/-- Every port is taken: the loop goes round for ever. -/
theorem no_port_no_return :
    ¬ ∀ (server : Server) (host : Host) (port : Int32), Allocates server host (startPort port) := by
  intro h
  let host : Host :=
    { socket := true
      bind := fun _ => none
      bind_port := fun _ hbind => nomatch hbind
      bind_zero := fun hbind => nomatch hbind }
  have hnever (q : UInt16) : ¬ Bindable host q := fun hq => Bool.false_ne_true hq
  obtain ⟨r, ⟨N, hN⟩, -, -⟩ := h .mt host 1278
  have hnone : childServer host N (startPort 1278) = none := childServer_none hnever N _
  exact nomatch hnone.symm.trans (hN N (Nat.le_refl N))

end LambGateway.QueueServer.ChildServer
