import LambGateway.Framework.FixedWindow
import LambGateway.Framework.Transition
import LambGateway.Server.Unsubscribe

/-!
# Frequency limit

The server counts the messages of an account to a number in a key that the first one makes and
that expires after a minute, and blocks a message when the count is over the limit. The
increment and the expiry are two commands. Times are the milliseconds of the nodes.
-/

namespace LambGateway.Server

open Framework

/-- `LAMB_LIMIT` -/
def lambLimit : Nat := 3

/-- `MAX_LIFETIME`, in milliseconds. -/
def maxLifetime : Nat := 1000 * 60

/-- What happens to the commands of a call. -/
inductive CallOutcome
  /-- `INCRBY` is not executed and has no reply. -/
  | unanswered
  /-- `INCRBY` is executed and the process stops. -/
  | stopped
  /-- `INCRBY` is answered; `EXPIRE` is executed or not, if it is sent. -/
  | answered (expires : Bool)
deriving DecidableEq

def NumberCaches.put {V : Type} (cache : NumberCaches V) (i : Nat) (key : Bytes) (v : V) :
    NumberCaches V :=
  { cache with nodes := cache.nodes.put i key (some v) }

/-- `lamb_check_frequency` at a time, with its answer unless the process stops. -/
def lambCheckFrequency (cache : NumberCaches Counter) (now : Nat) (id : Int32) (number : Bytes)
    (outcome : CallOutcome) : Option Bool × NumberCaches Counter :=
  let phone := phoneOf number
  if 0 < phone then
    let i := phone.toNat % cache.len
    let key := numberKey (id, phone)
    let counter := incrby now (cache.nodes i key)
    match outcome with
    | .unanswered => (some false, cache)
    | .stopped => (none, cache.put i key counter)
    | .answered expires =>
      if counter.count = 1 then
        let cache := cache.put i key counter
        (some false, if expires then cache.put i key (expire now maxLifetime counter) else cache)
      else (some (decide (lambLimit < counter.count)), cache.put i key counter)
  else (some false, cache)

/-! ## One call -/

/-- The entry of the key after a call for it. -/
def counterAfter (now : Nat) (outcome : CallOutcome) (entry : Option Counter) : Option Counter :=
  match outcome with
  | .unanswered => entry
  | .stopped => some (incrby now entry)
  | .answered true => some (countCall maxLifetime now entry)
  | .answered false => some (incrby now entry)

theorem entries_put (cache : NumberCaches Counter) (k : Int32 × UInt64) (c : Counter) :
    (cache.put (k.2.toNat % cache.len) (numberKey k) c).entries =
      Function.update cache.entries k (some c) :=
  Shards.view_put numberKey_injective cache.nodes k (some c)

theorem put_put_entries (cache : NumberCaches Counter) (k : Int32 × UInt64) (c d : Counter) :
    ((cache.put (k.2.toNat % cache.len) (numberKey k) c).put (k.2.toNat % cache.len)
      (numberKey k) d).entries = Function.update cache.entries k (some d) := by
  have hlast := entries_put (cache.put (k.2.toNat % cache.len) (numberKey k) c) k d
  apply hlast.trans
  rw [entries_put, Function.update_idem]

/-- A call changes the entry of its own key only. -/
theorem entries_lambCheckFrequency (cache : NumberCaches Counter) (now : Nat) (id : Int32)
    (number : Bytes) (outcome : CallOutcome) :
    (lambCheckFrequency cache now id number outcome).2.entries =
      if 0 < phoneOf number then
        Function.update cache.entries (id, phoneOf number)
          (counterAfter now outcome (cache.entries (id, phoneOf number)))
      else cache.entries := by
  have hentry : cache.entries (id, phoneOf number) =
      cache.nodes ((phoneOf number).toNat % cache.len) (numberKey (id, phoneOf number)) := rfl
  unfold lambCheckFrequency
  dsimp only
  by_cases hphone : 0 < phoneOf number
  · rw [if_pos hphone, if_pos hphone, hentry]
    cases outcome with
    | unanswered =>
      rw [counterAfter, ← hentry]
      exact (Function.update_eq_self _ _).symm
    | stopped => exact entries_put cache (id, phoneOf number) _
    | answered expires =>
      have hnew := put_put_entries cache (id, phoneOf number)
      have hset := entries_put cache (id, phoneOf number)
      cases expires with
      | false =>
        dsimp only
        split <;> exact hset _
      | true =>
        dsimp only [counterAfter, countCall]
        split
        · exact hnew _ _
        · exact hset _
  · rw [if_neg hphone, if_neg hphone]

/-- An answered call is blocked when the count is over the limit. -/
theorem lambCheckFrequency_verdict (cache : NumberCaches Counter) (now : Nat) (id : Int32)
    (number : Bytes) (expires : Bool) (hphone : 0 < phoneOf number) :
    (lambCheckFrequency cache now id number (.answered expires)).1 =
      some (decide (lambLimit < (incrby now (cache.entries (id, phoneOf number))).count)) := by
  unfold lambCheckFrequency
  dsimp only
  rw [if_pos hphone]
  have hentry : cache.nodes ((phoneOf number).toNat % cache.len)
      (numberKey (id, phoneOf number)) = cache.entries (id, phoneOf number) := rfl
  rw [hentry]
  split
  · next hone =>
    rw [hone]
    rfl
  · rfl

/-! ## Calls that are answered -/

/-- A call for an account and a number at a time. -/
structure FrequencyCall where
  now : Nat
  id : Int32
  number : Bytes

/-- The calls, each of them answered. -/
def checkAll (n : Nat) (calls : List FrequencyCall) : NumberCaches Counter :=
  calls.foldl (fun cache c =>
    (lambCheckFrequency cache c.now c.id c.number (.answered true)).2) (.init n)

/-- The answer to a call after others. -/
def verdictAfter (n : Nat) (calls : List FrequencyCall) (c : FrequencyCall) : Option Bool :=
  (lambCheckFrequency (checkAll n calls) c.now c.id c.number (.answered true)).1

/-- The calls for an account and a number. -/
def callsFor (id : Int32) (number : Bytes) (calls : List FrequencyCall) : List FrequencyCall :=
  calls.filter fun e => e.id = id ∧ atol e.number = atol number

/-- The entry of a key comes from the times of the calls for it. -/
theorem entries_checkAll (n : Nat) (calls : List FrequencyCall) (id : Int32) (number : Bytes)
    (hphone : 0 < phoneOf number) :
    (checkAll n calls).entries (id, phoneOf number) =
      ((callsFor id number calls).map FrequencyCall.now).foldl
        (fun entry t => some (countCall maxLifetime t entry)) none := by
  induction calls using List.reverseRecOn with
  | nil => rfl
  | append_singleton calls e ih =>
    have hrun : checkAll n (calls ++ [e]) =
        (lambCheckFrequency (checkAll n calls) e.now e.id e.number (.answered true)).2 :=
      List.foldl_concat ..
    rw [hrun, entries_lambCheckFrequency, callsFor, List.filter_append, List.map_append,
      List.foldl_append, ← callsFor, ← ih]
    by_cases hsame : e.id = id ∧ atol e.number = atol number
    · have hphones : phoneOf e.number = phoneOf number := (phoneOf_eq_iff _ _).mpr hsame.2
      have hin : [e].filter (fun e => e.id = id ∧ atol e.number = atol number) = [e] :=
        List.filter_cons_of_pos (decide_eq_true hsame)
      rw [hin, hphones, hsame.1, if_pos hphone, Function.update_self]
      rfl
    · have hout : [e].filter (fun e => e.id = id ∧ atol e.number = atol number) = [] :=
        List.filter_cons_of_neg (by simpa using hsame)
      have hother : (id, phoneOf number) ≠ (e.id, phoneOf e.number) := by
        intro h
        obtain ⟨hid, hnumber⟩ := Prod.mk.inj h
        exact hsame ⟨hid.symm, (phoneOf_eq_iff _ _).mp hnumber.symm⟩
      rw [hout]
      split
      · exact Function.update_of_ne hother _ _
      · rfl

/-- The verdict of a call is the number of calls for the same account and number in its window. -/
theorem verdictAfter_eq (n : Nat) (calls : List FrequencyCall) (c : FrequencyCall)
    (hsorted : calls.Pairwise fun x y => x.now ≤ y.now) (hphone : 0 < phoneOf c.number) :
    verdictAfter n calls c = some (decide (lambLimit ≤
      (inWindow maxLifetime ((callsFor c.id c.number calls).map FrequencyCall.now) c.now).length)) := by
  have hs : ((callsFor c.id c.number calls).map FrequencyCall.now).Pairwise (· ≤ ·) :=
    List.pairwise_map.mpr (hsorted.filter _)
  have htracks := tracks_foldl (show 0 < maxLifetime by decide) hs
  rw [← entries_checkAll n calls c.id c.number hphone] at htracks
  rw [verdictAfter, lambCheckFrequency_verdict _ _ _ _ _ hphone, htracks.incrby_count]
  simp only [Nat.lt_succ_iff]

/-- A call is blocked if and only if at least three earlier calls for the same account and the
same number fell into the current window. The calls for other accounts and numbers can be left
out, and the number of nodes does not matter. -/
theorem frequency_blocked_iff (n m : Nat) (calls : List FrequencyCall) (c : FrequencyCall)
    (hsorted : (calls ++ [c]).Pairwise fun x y => x.now ≤ y.now) (hnumber : atol c.number ≠ 0) :
    verdictAfter n calls c = some (decide (3 ≤
        (inWindow 60000 ((callsFor c.id c.number calls).map FrequencyCall.now) c.now).length)) ∧
      verdictAfter m (callsFor c.id c.number calls) c = verdictAfter n calls c := by
  have hphone := (phoneOf_pos_iff c.number).mpr hnumber
  have hs := (List.pairwise_append.mp hsorted).1
  have hall := verdictAfter_eq n calls c hs hphone
  have hsame := verdictAfter_eq m (callsFor c.id c.number calls) c (hs.filter _) hphone
  have hidem : callsFor c.id c.number (callsFor c.id c.number calls) =
      callsFor c.id c.number calls := by
    unfold callsFor
    rw [List.filter_filter]
    simp only [Bool.and_self]
  rw [hidem] at hsame
  exact ⟨hall, hsame.trans hall.symm⟩

/-- The fourth call of a minute is blocked, whatever another number does. -/
theorem frequency_blocked_iff_fourth :
    verdictAfter 1 [⟨0, 1, ascii "138"⟩, ⟨5, 1, ascii "138"⟩, ⟨6, 1, ascii "139"⟩,
      ⟨7, 1, ascii "138"⟩] ⟨59999, 1, ascii "138"⟩ = some true := by
  rw [(frequency_blocked_iff 1 1 _ _ (by decide) (by decide)).1]
  decide

/-! ## Commands that fail -/

/-- A call some time after the one before it, and what happens to its commands. -/
structure FrequencyAction where
  wait : Nat
  id : Int32
  number : Bytes
  outcome : CallOutcome

structure FrequencyState where
  clock : Nat
  cache : NumberCaches Counter

def FrequencyState.init (n : Nat) : FrequencyState := ⟨0, .init n⟩

def frequencyStep (s : FrequencyState) (a : FrequencyAction) : Option FrequencyState :=
  let now := s.clock + a.wait
  some ⟨now, (lambCheckFrequency s.cache now a.id a.number a.outcome).2⟩

/-- The key of an account and a number, as a command finds it at the time of the state. -/
def FrequencyState.key (s : FrequencyState) (k : Int32 × UInt64) : Option Counter :=
  liveCounter s.clock (s.cache.entries k)

/-- Every key that exists expires at most 60 seconds after the call that made it, and an answered
call for its number is accepted when that time has passed. -/
def NeverBlockedForGood (s : FrequencyState) : Prop :=
  ∀ k c, s.key k = some c →
    (∃ e, c.expiry = some e ∧ e ≤ c.created + 60000) ∧
    ∀ number now expires, (k.1, phoneOf number) = k → c.created + 60000 ≤ now →
      (lambCheckFrequency s.cache now k.1 number (.answered expires)).1 = some false

/-- A call that makes a key has its `EXPIRE` executed. -/
def NewKeyExpires (s : FrequencyState) (a : FrequencyAction) : Prop :=
  0 < phoneOf a.number → a.outcome ≠ .unanswered →
    liveCounter (s.clock + a.wait) (s.cache.entries (a.id, phoneOf a.number)) = none →
      a.outcome = .answered true

/-- A key that exists has been incremented. -/
def KeysCounted (s : FrequencyState) : Prop := ∀ k c, s.cache.entries k = some c → 1 ≤ c.count

def Expires (c : Counter) : Prop := ∃ e, c.expiry = some e ∧ e ≤ c.created + 60000

theorem liveCounter_eq_some {now : Nat} {entry : Option Counter} {c : Counter} :
    liveCounter now entry = some c ↔ entry = some c ∧ ∀ e, c.expiry = some e → now < e := by
  rw [liveCounter, Option.filter_eq_some_iff]
  cases c.expiry <;> simp

theorem incrby_count_pos (now : Nat) (entry : Option Counter) : 1 ≤ (incrby now entry).count := by
  unfold incrby
  split
  · exact Nat.le_add_left 1 _
  · exact Nat.le_refl 1

theorem counterAfter_count_pos {now : Nat} {outcome : CallOutcome} {entry : Option Counter}
    (hentry : ∀ c, entry = some c → 1 ≤ c.count) (c : Counter)
    (hc : counterAfter now outcome entry = some c) : 1 ≤ c.count := by
  have hincr := incrby_count_pos now entry
  cases outcome with
  | unanswered => exact hentry c hc
  | stopped =>
    obtain rfl := Option.some.inj hc
    exact hincr
  | answered expires =>
    cases expires with
    | false =>
      obtain rfl := Option.some.inj hc
      exact hincr
    | true =>
      obtain rfl := Option.some.inj hc
      unfold countCall
      dsimp only
      split <;> exact hincr

theorem incrby_of_live {now : Nat} {entry : Option Counter} {c : Counter}
    (h : liveCounter now entry = some c) : incrby now entry = { c with count := c.count + 1 } := by
  simp only [incrby, h]

theorem incrby_of_none {now : Nat} {entry : Option Counter} (h : liveCounter now entry = none) :
    incrby now entry = ⟨1, now, none⟩ := by
  simp only [incrby, h]

/-- What a call leaves expires, unless the call makes the key and its `EXPIRE` is not executed. -/
theorem counterAfter_expires_iff (outcome : CallOutcome) {now : Nat} {entry : Option Counter}
    (hcount : ∀ c, entry = some c → 1 ≤ c.count)
    (hlive : ∀ c, liveCounter now entry = some c → Expires c) :
    (∀ c, liveCounter now (counterAfter now outcome entry) = some c → Expires c) ↔
      (outcome ≠ .unanswered → liveCounter now entry = none → outcome = .answered true) := by
  cases hfound : liveCounter now entry with
  | some d =>
    -- the key is there: its expiry stays as it is
    have hd := hlive d hfound
    have hnext := incrby_of_live hfound
    have hmore : (incrby now entry).count ≠ 1 := by
      rw [hnext]
      have := hcount d (liveCounter_eq_some.mp hfound).1
      show d.count + 1 ≠ 1
      omega
    have hkeep : ∀ c, liveCounter now (some (incrby now entry)) = some c → Expires c := by
      intro c hc
      obtain rfl := Option.some.inj (liveCounter_eq_some.mp hc).1
      rw [hnext]
      exact hd
    have hcall : countCall maxLifetime now entry = incrby now entry := if_neg hmore
    apply iff_of_true
    · cases outcome with
      | unanswered => exact hlive
      | stopped => exact hkeep
      | answered expires =>
        cases expires with
        | false => exact hkeep
        | true =>
          rw [counterAfter, hcall]
          exact hkeep
    · exact fun _ hnone => nomatch hnone
  | none =>
    have hnew := incrby_of_none hfound
    have hforever : ¬ ∀ c, liveCounter now (some (incrby now entry)) = some c → Expires c := by
      intro h
      obtain ⟨e, he, -⟩ := h ⟨1, now, none⟩ (by rw [hnew]; rfl)
      exact nomatch he
    cases outcome with
    | unanswered =>
      apply iff_of_true
      · exact hlive
      · exact fun h => absurd rfl h
    | stopped =>
      apply iff_of_false hforever
      exact fun h => nomatch h (fun h => nomatch h) rfl
    | answered expires =>
      cases expires with
      | false =>
        apply iff_of_false hforever
        exact fun h => nomatch h (fun h => nomatch h) rfl
      | true =>
        apply iff_of_true
        · intro c hc
          have hcall : countCall maxLifetime now entry = ⟨1, now, some (now + maxLifetime)⟩ := by
            rw [countCall, hnew]
            rfl
          rw [counterAfter, hcall] at hc
          obtain rfl := Option.some.inj (liveCounter_eq_some.mp hc).1
          exact ⟨now + maxLifetime, rfl, Nat.le_refl _⟩
        · exact fun _ _ => rfl

/-- A key that expires in time is gone for a later call, which is accepted. -/
theorem neverBlockedForGood_iff (s : FrequencyState) :
    NeverBlockedForGood s ↔ ∀ k c, s.key k = some c → Expires c := by
  constructor
  · exact fun h k c hc => (h k c hc).1
  · intro h k c hc
    have hexpires := h k c hc
    refine ⟨hexpires, ?_⟩
    intro number now expires hk hnow
    obtain ⟨e, he, hle⟩ := hexpires
    by_cases hphone : 0 < phoneOf number
    · rw [lambCheckFrequency_verdict _ _ _ _ _ hphone, hk, (liveCounter_eq_some.mp hc).1,
        incrby_expired he (by omega)]
      rfl
    · unfold lambCheckFrequency
      dsimp only
      rw [if_neg hphone]

theorem keysCounted_step {s t : FrequencyState} {a : FrequencyAction} (hs : KeysCounted s)
    (ht : frequencyStep s a = some t) : KeysCounted t := by
  obtain rfl := Option.some.inj ht
  intro k c hc
  rw [entries_lambCheckFrequency] at hc
  split at hc
  · by_cases hk : k = (a.id, phoneOf a.number)
    · rw [hk, Function.update_self] at hc
      exact counterAfter_count_pos (hs _) c hc
    · rw [Function.update_of_ne hk] at hc
      exact hs k c hc
  · exact hs k c hc

/-- The keys a later command finds are among those found now. -/
theorem expires_later {s : FrequencyState} (hs : ∀ k c, s.key k = some c → Expires c) (wait : Nat)
    (k : Int32 × UInt64) (c : Counter)
    (hc : liveCounter (s.clock + wait) (s.cache.entries k) = some c) : Expires c := by
  obtain ⟨hentry, hlater⟩ := liveCounter_eq_some.mp hc
  apply hs k c
  apply liveCounter_eq_some.mpr
  exact ⟨hentry, fun e he => Nat.lt_of_le_of_lt (Nat.le_add_right _ wait) (hlater e he)⟩

theorem neverBlockedForGood_step {s : FrequencyState} (hcounted : KeysCounted s)
    (hs : NeverBlockedForGood s) (a : FrequencyAction) :
    (∀ t, frequencyStep s a = some t → NeverBlockedForGood t) ↔ NewKeyExpires s a := by
  have hnow := (neverBlockedForGood_iff s).mp hs
  have hlater := expires_later hnow a.wait
  have hown := counterAfter_expires_iff a.outcome (hcounted (a.id, phoneOf a.number))
    (hlater (a.id, phoneOf a.number))
  unfold NewKeyExpires
  rw [frequencyStep]
  simp only [Option.some.injEq, forall_eq', neverBlockedForGood_iff, FrequencyState.key,
    entries_lambCheckFrequency]
  by_cases hphone : 0 < phoneOf a.number
  · simp only [hphone, if_true, true_imp_iff]
    rw [← hown]
    constructor
    · intro h c hc
      apply h (a.id, phoneOf a.number) c
      rwa [Function.update_self]
    · intro h k c hc
      by_cases hk : k = (a.id, phoneOf a.number)
      · rw [hk, Function.update_self] at hc
        exact h c hc
      · rw [Function.update_of_ne hk] at hc
        exact hlater k c hc
  · simp only [if_neg hphone]
    apply iff_of_true hlater
    exact fun h => absurd h hphone

/-- Over any calls, with commands that fail and processes that stop: every key that exists
expires in time in all states of a run if and only if each call that makes a key has its `EXPIRE`
executed. -/
theorem never_blocked_for_good_iff (n : Nat) (as : List FrequencyAction) :
    (∀ bs, bs <+: as → ∀ t, exec frequencyStep (.init n) bs = some t → NeverBlockedForGood t) ↔
      Guarded frequencyStep NewKeyExpires (.init n) as := by
  have hinv {s t : FrequencyState} {a : FrequencyAction} (hs : KeysCounted s)
      (ht : frequencyStep s a = some t) (_ : NeverBlockedForGood t) : KeysCounted t :=
    keysCounted_step hs ht
  apply forall_states_iff_guarded_of_invariant hinv
  · exact fun hs hp a => neverBlockedForGood_step hs hp a
  · exact fun k c hc => nomatch hc
  · exact fun k c hc => nomatch hc

/-- The process stops after the first `INCRBY`: the key stays, and counts calls for ever. -/
theorem key_without_expiry :
    ¬ ∀ (n : Nat) (as bs : List FrequencyAction), bs <+: as →
      ∀ t, exec frequencyStep (.init n) bs = some t → NeverBlockedForGood t := by
  intro h
  have hend := h 0 [⟨0, 1, ascii "138", .stopped⟩] _ (List.prefix_refl _) _ rfl
  obtain ⟨⟨e, he, -⟩, -⟩ := hend (1, phoneOf (ascii "138")) ⟨1, 0, none⟩ (by decide)
  exact nomatch he

end LambGateway.Server
