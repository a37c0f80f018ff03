import LambGateway.Framework.Decimal
import LambGateway.Framework.Transition
import Mathlib.Data.List.Nodup
import Mathlib.Logic.Function.Basic

/-!
# Logins and the sessions' time stamps

The main loop refuses a login if the account's time stamp in the cache is less than 7 seconds
old. The stamp is not written by the main loop: each session is a process of its own and writes
it when its online loop gets to run, and then every 3 seconds.
-/

namespace LambGateway.Ismg.Login

open Framework

/-- The number that `lamb_is_login` reads from a stamp, into an `int`. -/
def lastOnline (str : Bytes) : Int32 := if 0 < str.length then atoi str else 0

/-- `lamb_is_login`, given the reply to `HGET client.%d online`. -/
def lambIsLogin (now : Nat) : Option Bytes → Bool
  | some str => decide ((now : Int) - (lastOnline str).toInt < 7)
  | none => false

/-- A session process: its account, and when it has last written the stamp, if ever. -/
structure Session where
  account : Int32
  renewed : Option Nat
  deriving DecidableEq

/-- The online loop writes: at first whenever it gets to run, and then as soon as it has slept
for 3 seconds. -/
def Session.canRenew (session : Session) (now : Nat) : Prop := ∀ r ∈ session.renewed, r + 3 ≤ now

/-- The sleep of the online loop is over. -/
def Session.due (session : Session) (now : Nat) : Prop := ∃ r ∈ session.renewed, r + 3 ≤ now

instance (session : Session) (now : Nat) : Decidable (session.canRenew now) :=
  inferInstanceAs (Decidable (∀ r ∈ session.renewed, r + 3 ≤ now))

instance (session : Session) (now : Nat) : Decidable (session.due now) :=
  match session with
  | ⟨_, none⟩ => isFalse fun ⟨_, hr, _⟩ => by cases hr
  | ⟨_, some r⟩ => decidable_of_iff (r + 3 ≤ now) ⟨fun h => ⟨r, rfl, h⟩, fun ⟨_, hr, h⟩ => by
      cases hr
      exact h⟩

/-- The clock in seconds, the field `online` of the accounts' hashes, and the live sessions. -/
structure State where
  clock : Nat
  online : Int32 → Option Bytes
  sessions : List Session

/-- No session is alive; the cache holds what earlier runs have left there. -/
def State.init (clock : Nat) (online : Int32 → Option Bytes) : State := ⟨clock, online, []⟩

inductive Action where
  | tick
  /-- `CMPP_CONNECT` with valid credentials, and whether `fork` succeeds. -/
  | login (account : Int32) (fork : Bool)
  | renew (i : Nat)
  | exit (i : Nat)

/-- `lamb_state_renewal`: `HSET client.%d online %ld`. -/
def lambStateRenewal (s : State) (account : Int32) : Int32 → Option Bytes :=
  Function.update s.online account (some (decimal s.clock))

/-- The clock does not pass a moment at which a session has to write. -/
def step (s : State) : Action → Option State
  | .tick =>
    if ∀ session ∈ s.sessions, ¬session.due s.clock then some { s with clock := s.clock + 1 }
    else none
  | .login account fork =>
    if lambIsLogin s.clock (s.online account) then some s
    else if fork then some { s with sessions := s.sessions ++ [⟨account, none⟩] }
    else some s
  | .renew i =>
    match s.sessions[i]? with
    | some session =>
      if session.canRenew s.clock then
        some
          { s with
            online := lambStateRenewal s session.account
            sessions := s.sessions.set i { session with renewed := some s.clock } }
      else none
    | none => none
  | .exit i =>
    if i < s.sessions.length then some { s with sessions := s.sessions.eraseIdx i } else none

/-! ## When a stamp is fresh -/

def accounts (sessions : List Session) : List Int32 := sessions.map Session.account

/-- No two live sessions have one account. -/
def SingleSession (s : State) : Prop := (accounts s.sessions).Nodup

/-- There is a stamp for the account, and as an `int` it is less than 7 seconds old. -/
def Stamped (s : State) (account : Int32) : Prop :=
  ∃ str, s.online account = some str ∧ (s.clock : Int) - (lastOnline str).toInt < 7

/-- When a client logs in and the account has a live session, that session has written its first
stamp, at a time that an `int` holds, or the stamp of an earlier one is still fresh. -/
def AfterRenewal (s : State) : Action → Prop
  | .login account true => ∀ session ∈ s.sessions, session.account = account →
      (∃ r, session.renewed = some r ∧ r < 2 ^ 31) ∨ Stamped s account
  | _ => True

theorem lambIsLogin_iff (s : State) (account : Int32) :
    lambIsLogin s.clock (s.online account) = true ↔ Stamped s account := by
  unfold Stamped
  cases s.online account with
  | none => exact iff_of_false Bool.false_ne_true fun ⟨_, h, _⟩ => by cases h
  | some str =>
    constructor
    · exact fun h => ⟨str, rfl, of_decide_eq_true h⟩
    · rintro ⟨_, h, hfresh⟩
      cases h
      exact decide_eq_true hfresh

theorem lastOnline_decimal {r : Nat} (h : r < 2 ^ 31) : (lastOnline (decimal r)).toInt = r := by
  have hlen : 0 < (decimal r).length := List.length_pos_of_ne_nil (decimal_ne_nil r)
  have hint : (Int32.ofInt r).toInt = r :=
    Int32.toInt_ofInt_of_le (by omega) (by omega)
  have hread := atoi_decimalInt (Int32.ofInt r)
  rw [hint] at hread
  rw [lastOnline, if_pos hlen]
  change (atoi (decimalInt (Int.ofNat r))).toInt = r
  rw [show Int.ofNat r = (r : Int) from rfl, hread, hint]

/-! ## One step -/

/-- A session that has written is known by its last stamp, and its next one is not overdue. -/
structure Inv (s : State) : Prop where
  single : SingleSession s
  stamp : ∀ session ∈ s.sessions, ∀ r, session.renewed = some r →
    s.online session.account = some (decimal r) ∧ s.clock ≤ r + 3

theorem inv_init (clock : Nat) (online : Int32 → Option Bytes) : Inv (.init clock online) where
  single := List.nodup_nil
  stamp _ h := by cases h

theorem stamped_of_renewed {s : State} (hs : Inv s) {session : Session}
    (hmem : session ∈ s.sessions) {r : Nat} (hr : session.renewed = some r) (hint : r < 2 ^ 31) :
    Stamped s session.account := by
  obtain ⟨honline, hclock⟩ := hs.stamp session hmem r hr
  have hlast := lastOnline_decimal hint
  exact ⟨decimal r, honline, by omega⟩

theorem accounts_set {sessions : List Session} {i : Nat} {session : Session}
    (h : sessions[i]? = some session) (renewed : Option Nat) :
    accounts (sessions.set i ⟨session.account, renewed⟩) = accounts sessions := by
  obtain ⟨hlt, hget⟩ := List.getElem?_eq_some_iff.mp h
  have hlt' : i < (accounts sessions).length := by
    rw [accounts, List.length_map]
    exact hlt
  have hsame : (accounts sessions)[i] = session.account := by
    simp only [accounts, List.getElem_map, hget]
  rw [accounts, List.map_set, ← accounts, ← hsame]
  exact List.set_getElem_self hlt'

/-- An accepted login adds a session; every other step adds none. -/
theorem step_cases {s t : State} {a : Action} (h : step s a = some t) :
    (∃ account, a = .login account true ∧ ¬Stamped s account ∧
        t = { s with sessions := s.sessions ++ [⟨account, none⟩] }) ∨
      (accounts t.sessions).Sublist (accounts s.sessions) := by
  cases a with
  | tick =>
    simp only [step] at h
    split at h <;> cases h
    exact .inr (List.Sublist.refl _)
  | login account fork =>
    simp only [step] at h
    split at h
    · cases h
      exact .inr (List.Sublist.refl _)
    · next hrefused =>
      rw [lambIsLogin_iff] at hrefused
      cases fork with
      | true =>
        cases h
        exact .inl ⟨account, rfl, hrefused, rfl⟩
      | false =>
        cases h
        exact .inr (List.Sublist.refl _)
  | renew i =>
    simp only [step] at h
    split at h
    · next session hi =>
      split at h
      · cases h
        right
        rw [accounts_set hi]
      · cases h
    · cases h
  | exit i =>
    simp only [step] at h
    split at h <;> cases h
    exact .inr ((List.eraseIdx_sublist _ _).map _)

theorem singleSession_add_iff (s : State) (account : Int32) :
    SingleSession { s with sessions := s.sessions ++ [⟨account, none⟩] } ↔
      account ∉ accounts s.sessions ∧ SingleSession s := by
  rw [SingleSession, accounts, List.map_append]
  change (accounts s.sessions ++ [account]).Nodup ↔ _
  rw [← List.concat_eq_append, List.nodup_concat]
  rfl

theorem singleSession_step_iff {s : State} (hs : Inv s) (a : Action) :
    (∀ t, step s a = some t → SingleSession t) ↔ AfterRenewal s a := by
  constructor
  · intro h
    cases a with
    | login account fork =>
      cases fork with
      | true =>
        intro session hmem haccount
        right
        by_contra hstale
        have hrefused : ¬lambIsLogin s.clock (s.online account) = true := by
          rw [lambIsLogin_iff]
          exact hstale
        have hsingle := h _ (by rw [step, if_neg hrefused, if_pos rfl])
        apply ((singleSession_add_iff s account).mp hsingle).1
        rw [← haccount]
        exact List.mem_map_of_mem hmem
      | false => trivial
    | tick | renew | exit => trivial
  · intro hafter t ht
    rcases step_cases ht with ⟨account, rfl, hstale, rfl⟩ | hsub
    · apply (singleSession_add_iff s account).mpr
      refine ⟨fun hlive => hstale ?_, hs.single⟩
      obtain ⟨session, hmem, rfl⟩ := List.mem_map.mp hlive
      rcases hafter session hmem rfl with ⟨r, hr, hint⟩ | hstamped
      · exact stamped_of_renewed hs hmem hr hint
      · exact hstamped
    · exact hs.single.sublist hsub

theorem account_ne {s : State} (hs : SingleSession s) {i j : Nat} {x y : Session}
    (hi : s.sessions[i]? = some x) (hj : s.sessions[j]? = some y) (hne : j ≠ i) :
    y.account ≠ x.account := by
  intro heq
  have hx : (accounts s.sessions)[i]? = some x.account := by
    rw [accounts, List.getElem?_map, hi, Option.map_some]
  have hy : (accounts s.sessions)[j]? = some y.account := by
    rw [accounts, List.getElem?_map, hj, Option.map_some]
  obtain ⟨hlt, -⟩ := List.getElem?_eq_some_iff.mp hy
  have hsame : (accounts s.sessions)[j]? = (accounts s.sessions)[i]? := by rw [hy, heq, hx]
  exact hne ((List.getElem?_inj hlt hs).mp hsame)

/-- The session that writes is the only one of its account, so no other one's stamp is lost. -/
theorem stamp_renew {s : State} (hs : Inv s) {i : Nat} {session : Session}
    (hi : s.sessions[i]? = some session) :
    ∀ other ∈ s.sessions.set i ⟨session.account, some s.clock⟩, ∀ r, other.renewed = some r →
      lambStateRenewal s session.account other.account = some (decimal r) ∧ s.clock ≤ r + 3 := by
  intro other hmem r hr
  obtain ⟨j, hlt, hj⟩ := List.mem_iff_getElem.mp hmem
  rw [List.getElem_set] at hj
  split at hj
  · subst hj
    cases hr
    exact ⟨Function.update_self .., Nat.le_add_right s.clock 3⟩
  · next hne =>
    rw [List.length_set] at hlt
    have hget : s.sessions[j]? = some other := by rw [List.getElem?_eq_getElem hlt, hj]
    have haccount : other.account ≠ session.account :=
      account_ne hs.single hi hget (Ne.symm hne)
    obtain ⟨honline, hclock⟩ := hs.stamp other (List.mem_of_getElem? hget) r hr
    refine ⟨?_, hclock⟩
    rw [← honline]
    exact Function.update_of_ne haccount ..

theorem inv_step {s t : State} {a : Action} (hs : Inv s) (ht : step s a = some t)
    (hsingle : SingleSession t) : Inv t := by
  refine ⟨hsingle, ?_⟩
  cases a with
  | tick =>
    simp only [step] at ht
    split at ht
    · next hdue =>
      cases ht
      intro session hmem r hr
      obtain ⟨honline, -⟩ := hs.stamp session hmem r hr
      have hnot : ¬r + 3 ≤ s.clock := fun hle => hdue session hmem ⟨r, hr, hle⟩
      exact ⟨honline, by change s.clock + 1 ≤ r + 3; omega⟩
    · cases ht
  | login account fork =>
    simp only [step] at ht
    split at ht
    · cases ht
      exact hs.stamp
    · split at ht
      · cases ht
        intro session hmem r hr
        rcases List.mem_append.mp hmem with hmem | hmem
        · exact hs.stamp session hmem r hr
        · obtain rfl := List.mem_singleton.mp hmem
          cases hr
      · cases ht
        exact hs.stamp
  | renew i =>
    simp only [step] at ht
    split at ht
    · next session hi =>
      split at ht
      · cases ht
        exact stamp_renew hs hi
      · cases ht
    · cases ht
  | exit i =>
    simp only [step] at ht
    split at ht
    · cases ht
      exact fun session hmem => hs.stamp session (List.mem_of_mem_eraseIdx hmem)
    · cases ht

/-! ## Runs -/

/-- In all states of a run no two live sessions have one account, if and only if each login comes
in when the account has no live session, or when its stamp is there to be seen. -/
theorem single_session_iff (clock : Nat) (online : Int32 → Option Bytes) (as : List Action) :
    (∀ bs, bs <+: as → ∀ t, exec step (.init clock online) bs = some t → SingleSession t) ↔
      Guarded step AfterRenewal (.init clock online) as := by
  have hinit := inv_init clock online
  apply forall_states_iff_guarded_of_invariant inv_step
  · exact fun hs _ a => singleSession_step_iff hs a
  · exact hinit
  · exact hinit.single

/-- A client logs in twice before the first session's online loop has run. Both sessions are
taken, and both go on to write the account's stamp. -/
theorem double_login :
    ∃ t, exec step (.init 1700000000 fun _ => none)
        [.login 1 true, .login 1 true, .renew 0, .renew 1] = some t ∧
      t.sessions = [⟨1, some 1700000000⟩, ⟨1, some 1700000000⟩] ∧ ¬SingleSession t := by
  refine ⟨_, rfl, rfl, fun h => ?_⟩
  have hdup : ([1, 1] : List Int32).Nodup := h
  exact absurd hdup (by decide)

end LambGateway.Ismg.Login
