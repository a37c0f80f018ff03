import LambGateway.Framework.Transition
import LambGateway.Server.WorkLoop
import Mathlib.Data.List.Nodup

/-!
# The hand-over from server to scheduler

The work loop sends a message and waits for the answer; on `LAMB_BUSY` and on a failed receive it
sends the message again. On each connection a push loop of the scheduler takes a message,
appends it to a gateway's queue if it can, and answers. A reload of the server closes the
connection, whereby everything in flight is lost, and opens another one.
-/

namespace LambGateway.Server.Handover

open Framework

/-- Where the work loop stands; messages are numbered in the order in which they are pulled. -/
inductive Phase where
  | idle
  | ready (m : Nat)
  | awaiting (m : Nat)
  deriving DecidableEq

inductive Handler where
  | idle
  | received (m : Nat)
  | answering (a : Answer)
  deriving DecidableEq

/-- `up` and `down` are in flight on the open connection. -/
structure State where
  server : Phase
  pulled : Nat
  link : Option Nat
  links : Nat
  up : List Nat
  down : List Answer
  handlers : Nat → Handler
  appended : List Nat
  billed : List Nat

def State.init : State where
  server := .idle
  pulled := 0
  link := some 0
  links := 1
  up := []
  down := []
  handlers _ := .idle
  appended := []
  billed := []

inductive Action where
  | pull
  | send
  /-- The push loop of a connection takes a message off the wire. -/
  | take (c : Nat)
  /-- It appends the message to a queue, or not, and so has its answer. -/
  | decide (c : Nat) (a : Answer)
  /-- It sends the answer, which may be lost. -/
  | answer (c : Nat) (sent : Bool)
  | receive
  | receiveFails
  | close
  | reopen
  deriving DecidableEq

def step (s : State) : Action → Option State
  | .pull =>
    match s.server with
    | .idle => some { s with server := .ready s.pulled, pulled := s.pulled + 1 }
    | _ => none
  | .send =>
    match s.server, s.link with
    | .ready m, some _ => some { s with server := .awaiting m, up := s.up ++ [m] }
    | _, _ => none
  | .take c =>
    match s.handlers c, s.up with
    | .idle, m :: up =>
      if s.link = some c then
        some { s with handlers := Function.update s.handlers c (.received m), up := up }
      else none
    | _, _ => none
  | .decide c a =>
    match s.handlers c, a with
    | .received _, .failed => none
    | .received m, a => some
      { s with
        handlers := Function.update s.handlers c (.answering a)
        appended := if a = .ok then s.appended ++ [m] else s.appended }
    | _, _ => none
  | .answer c sent =>
    match s.handlers c with
    | .answering a => some
      { s with
        handlers := Function.update s.handlers c .idle
        down := if s.link = some c ∧ sent then s.down ++ [a] else s.down }
    | _ => none
  | .receive =>
    match s.server, s.link, s.down with
    | .awaiting m, some _, a :: down =>
      match a with
      | .ok => some { s with server := .idle, down := down, billed := s.billed ++ [m] }
      | .noroute | .reject => some { s with server := .idle, down := down }
      | .busy | .failed => some { s with server := .ready m, down := down }
    | _, _, _ => none
  | .receiveFails =>
    match s.server with
    | .awaiting m => some { s with server := .ready m }
    | _ => none
  | .close =>
    match s.link with
    | some _ => some { s with link := none, up := [], down := [] }
    | none => none
  | .reopen =>
    match s.link with
    | some _ => none
    | none => some { s with link := some s.links, links := s.links + 1 }

example (s : State) (h : s.link = none) : step s .close = none := by
  simp only [step, h]

/-! ## At most once -/

/-- No message is in the queues twice, and what is billed is in a queue. -/
def AtMostOnce (s : State) : Prop := s.appended.Nodup ∧ ∀ m ∈ s.billed, m ∈ s.appended

instance (s : State) : Decidable (AtMostOnce s) :=
  inferInstanceAs (Decidable (_ ∧ _))

def Handler.owes : Handler → List Answer
  | .answering a => [a]
  | _ => []

/-- The answers that can still come in: those in flight, and what the push loop of the open
connection is about to send. -/
def expected (s : State) : List Answer :=
  s.down ++
    match s.link with
    | none => []
    | some c => (s.handlers c).owes

/-- The message is in no queue, nobody can append it any more, and no answer can still come. -/
def Lost (s : State) (m : Nat) : Prop :=
  m ∉ s.appended ∧ m ∉ s.up ∧ (∀ c, c < s.links → s.handlers c ≠ .received m) ∧ expected s = []

instance (s : State) (m : Nat) : Decidable (Lost s m) :=
  inferInstanceAs (Decidable (_ ∧ _ ∧ _ ∧ _))

def Phase.awaited : Phase → Option Nat
  | .awaiting m => some m
  | _ => none

/-- When a receive fails, the message whose answer was awaited is lost. -/
def FailsLost (s : State) (a : Action) : Prop :=
  a = .receiveFails → ∀ m ∈ s.server.awaited, Lost s m

instance (s : State) (a : Action) : Decidable (FailsLost s a) :=
  inferInstanceAs (Decidable (_ → _))

/-! ## Where a message is -/

def NoneReceived (s : State) : Prop := ∀ c m, s.handlers c ≠ .received m

/-- Where the message at hand is, and what can still come in for it. -/
inductive Stage (s : State) : Prop
  | atServer (hserver : s.server.awaited = none)
    (hready : ∀ m, s.server = .ready m → m ∉ s.appended ∧ m < s.pulled)
    (hup : s.up = []) (hnone : NoneReceived s) (hexpected : expected s = [])
  | onWire (m : Nat) (hserver : s.server = .awaiting m) (hnew : m ∉ s.appended ∧ m < s.pulled)
    (hup : s.up = [m]) (hnone : NoneReceived s) (hexpected : expected s = [])
  | atScheduler (m c : Nat) (hserver : s.server = .awaiting m)
    (hnew : m ∉ s.appended ∧ m < s.pulled) (hup : s.up = []) (hc : s.handlers c = .received m)
    (hnone : ∀ d, d ≠ c → ∀ k, s.handlers d ≠ .received k) (hexpected : expected s = [])
  | answered (m : Nat) (hserver : s.server = .awaiting m) (hm : m < s.pulled) (hup : s.up = [])
    (hnone : NoneReceived s)
    (hexpected : ∀ a ∈ expected s, expected s = [a] ∧ (a = .ok ↔ m ∈ s.appended))

structure Inv (s : State) : Prop where
  stage : Stage s
  safe : AtMostOnce s
  pulled : ∀ m ∈ s.appended, m < s.pulled
  link_lt : ∀ c, s.link = some c → c < s.links
  unused : ∀ c, s.links ≤ c → s.handlers c = .idle

theorem inv_init : Inv State.init where
  stage := .atServer rfl (by simp [State.init]) rfl (by simp [NoneReceived, State.init]) rfl
  safe := ⟨List.nodup_nil, by simp [State.init]⟩
  pulled := by simp [State.init]
  link_lt := by simp [State.init]
  unused _ _ := rfl

theorem Inv.used {s : State} (hi : Inv s) {c : Nat} (h : s.handlers c ≠ .idle) : c < s.links := by
  by_contra hc
  exact h (hi.unused c (not_lt.mp hc))

theorem Inv.unused_update {s : State} (hi : Inv s) {c : Nat} (hc : c < s.links) (h : Handler) :
    ∀ d, s.links ≤ d → Function.update s.handlers c h d = .idle := by
  intro d hd
  exact (Function.update_of_ne (hc.trans_le hd).ne' h s.handlers).trans (hi.unused d hd)

/-- Steps that move no message and bring in no answer keep the stage. -/
theorem Stage.of_prefix {s t : State} (hs : Stage s) (hserver : t.server = s.server)
    (happended : t.appended = s.appended) (hpulled : t.pulled = s.pulled) (hup : t.up = s.up)
    (hreceived : ∀ c m, t.handlers c = .received m ↔ s.handlers c = .received m)
    (hexpected : expected t <+: expected s) : Stage t := by
  cases hs with
  | atServer hserver' hready hup' hnone hexp =>
    refine .atServer (hserver ▸ hserver') ?_ (hup.trans hup') ?_ ?_
    · rw [hserver, happended, hpulled]
      exact hready
    · exact fun c m h => hnone c m ((hreceived c m).mp h)
    · exact List.prefix_nil.mp (hexp ▸ hexpected)
  | onWire m hserver' hnew hup' hnone hexp =>
    refine .onWire m (hserver.trans hserver') ?_ (hup.trans hup') ?_ ?_
    · rw [happended, hpulled]
      exact hnew
    · exact fun c k h => hnone c k ((hreceived c k).mp h)
    · exact List.prefix_nil.mp (hexp ▸ hexpected)
  | atScheduler m c hserver' hnew hup' hc hnone hexp =>
    refine .atScheduler m c (hserver.trans hserver') ?_ (hup.trans hup') ?_ ?_ ?_
    · rw [happended, hpulled]
      exact hnew
    · exact (hreceived c m).mpr hc
    · exact fun d hd k h => hnone d hd k ((hreceived d k).mp h)
    · exact List.prefix_nil.mp (hexp ▸ hexpected)
  | answered m hserver' hm hup' hnone hexp =>
    refine .answered m (hserver.trans hserver') (hpulled ▸ hm) (hup.trans hup') ?_ ?_
    · exact fun c k h => hnone c k ((hreceived c k).mp h)
    · intro a ha
      obtain ⟨hone, hok⟩ := hexp a (hexpected.subset ha)
      refine ⟨?_, happended ▸ hok⟩
      rw [hone] at hexpected
      exact hexpected.eq_of_length_le (List.length_pos_of_mem ha)

theorem Stage.up_eq {s : State} (hs : Stage s) {m : Nat} {up : List Nat} (h : s.up = m :: up) :
    up = [] ∧ s.server = .awaiting m ∧ (m ∉ s.appended ∧ m < s.pulled) ∧ NoneReceived s ∧
      expected s = [] := by
  cases hs with
  | onWire k hserver hnew hup hnone hexpected =>
    rw [hup] at h
    cases h
    exact ⟨rfl, hserver, hnew, hnone, hexpected⟩
  | atServer _ _ hup => cases hup.symm.trans h
  | atScheduler _ _ _ _ hup => cases hup.symm.trans h
  | answered _ _ _ hup => cases hup.symm.trans h

theorem Stage.received {s : State} (hs : Stage s) {c m : Nat} (h : s.handlers c = .received m) :
    s.server = .awaiting m ∧ (m ∉ s.appended ∧ m < s.pulled) ∧ s.up = [] ∧
      (∀ d, d ≠ c → ∀ k, s.handlers d ≠ .received k) ∧ expected s = [] := by
  cases hs with
  | atScheduler k d hserver hnew hup hd hnone hexpected =>
    obtain rfl : c = d := by
      by_contra hne
      exact hnone c hne m h
    obtain rfl : m = k := by simpa [h] using hd
    exact ⟨hserver, hnew, hup, hnone, hexpected⟩
  | atServer _ _ _ hnone => exact absurd h (hnone c m)
  | onWire _ _ _ _ hnone => exact absurd h (hnone c m)
  | answered _ _ _ _ hnone => exact absurd h (hnone c m)

theorem Stage.not_awaiting {s : State} (hs : Stage s) (h : s.server.awaited = none) :
    (∀ m, s.server = .ready m → m ∉ s.appended ∧ m < s.pulled) ∧ s.up = [] ∧ NoneReceived s ∧
      expected s = [] := by
  cases hs with
  | atServer _ hready hup hnone hexpected => exact ⟨hready, hup, hnone, hexpected⟩
  | onWire _ hserver => simp [hserver, Phase.awaited] at h
  | atScheduler _ _ hserver => simp [hserver, Phase.awaited] at h
  | answered _ hserver => simp [hserver, Phase.awaited] at h

/-! ## The steps -/

variable {s t : State}

theorem inv_pull (hi : Inv s) (h : step s .pull = some t) : Inv t := by
  simp only [step] at h
  split at h <;> cases h
  rename_i hidle
  obtain ⟨-, hup, hnone, hexpected⟩ := hi.stage.not_awaiting (by rw [hidle]; rfl)
  refine ⟨.atServer rfl ?_ hup hnone hexpected, hi.safe, ?_, hi.link_lt, hi.unused⟩
  · intro m hm
    cases hm
    exact ⟨fun hmem => lt_irrefl _ (hi.pulled _ hmem), Nat.lt_succ_self _⟩
  · exact fun m hm => (hi.pulled m hm).trans (Nat.lt_succ_self _)

theorem inv_send (hi : Inv s) (h : step s .send = some t) : Inv t := by
  simp only [step] at h
  split at h <;> cases h
  rename_i m c hready hlink
  obtain ⟨hnew, hup, hnone, hexpected⟩ := hi.stage.not_awaiting (by rw [hready]; rfl)
  refine ⟨.onWire m rfl (hnew m hready) ?_ hnone hexpected, hi.safe, hi.pulled, hi.link_lt,
    hi.unused⟩
  rw [hup, List.nil_append]

theorem expected_update {h : Handler} {c : Nat} (hc : (s.handlers c).owes = h.owes) :
    expected { s with handlers := Function.update s.handlers c h } = expected s := by
  unfold expected
  cases hlink : s.link with
  | none => rfl
  | some d =>
    by_cases hd : d = c
    · subst hd
      simp only [Function.update_self, hc]
    · simp only [Function.update_of_ne hd]

theorem inv_take {c : Nat} (hi : Inv s) (h : step s (.take c) = some t) : Inv t := by
  simp only [step] at h
  split at h
  on_goal 2 => cases h
  rename_i m up hidle hup
  split at h <;> cases h
  rename_i hlink
  obtain ⟨rfl, hserver, hnew, hnone, hexpected⟩ := hi.stage.up_eq hup
  have hstage :
      Stage { s with handlers := Function.update s.handlers c (.received m), up := [] } := by
    refine .atScheduler m c hserver hnew rfl (Function.update_self ..) ?_ ?_
    · intro d hd k hk
      exact hnone d k ((Function.update_of_ne hd _ _).symm.trans hk)
    · exact (expected_update (s := s) (h := .received m) (by rw [hidle]; rfl)).trans hexpected
  exact ⟨hstage, hi.safe, hi.pulled, hi.link_lt, hi.unused_update (hi.link_lt c hlink) _⟩

theorem inv_decide {c : Nat} {a : Answer} (hi : Inv s) (h : step s (.decide c a) = some t) :
    Inv t := by
  simp only [step] at h
  split at h <;> cases h
  rename_i a _ _ m hc hfailed
  obtain ⟨hserver, ⟨hnew, hm⟩, hup, hnone, hexpected⟩ := hi.stage.received hc
  set appended := if a = .ok then s.appended ++ [m] else s.appended with happended
  have hmem (k : Nat) : k ∈ appended ↔ k ∈ s.appended ∨ a = .ok ∧ k = m := by
    rw [happended]
    split <;> simp_all
  have hnodup : appended.Nodup := by
    rw [happended]
    split
    · rw [← List.concat_eq_append]
      exact List.Nodup.concat hnew hi.safe.1
    · exact hi.safe.1
  have hused := hi.used (by rw [hc]; exact Handler.noConfusion)
  refine ⟨.answered m hserver hm hup ?_ ?_, ⟨hnodup, ?_⟩, ?_, hi.link_lt, hi.unused_update hused _⟩
  · intro d k hk
    by_cases hd : d = c
    · subst hd
      simp only [Function.update_self, reduceCtorEq] at hk
    · exact hnone d hd k ((Function.update_of_ne hd _ _).symm.trans hk)
  · intro b hb
    have hdown : s.down = [] := (List.append_eq_nil_iff.mp hexpected).1
    simp only [expected, hdown, List.nil_append] at hb ⊢
    cases hlink : s.link with
    | none => simp [hlink] at hb
    | some d =>
      by_cases hd : d = c
      · subst hd
        simp only [hlink, Function.update_self, Handler.owes, List.mem_singleton] at hb ⊢
        subst hb
        simp [hmem, hnew]
      · -- the answer will be sent on a connection that is closed
        have howes := (List.append_eq_nil_iff.mp hexpected).2
        simp only [hlink, Function.update_of_ne hd] at hb howes
        simp [howes] at hb
  · exact fun k hk => (hmem k).mpr (.inl (hi.safe.2 k hk))
  · intro k hk
    rcases (hmem k).mp hk with hk | ⟨-, rfl⟩
    · exact hi.pulled k hk
    · exact hm

theorem inv_answer {c : Nat} {sent : Bool} (hi : Inv s) (h : step s (.answer c sent) = some t) :
    Inv t := by
  simp only [step] at h
  split at h <;> cases h
  rename_i a hc
  have hused := hi.used (by rw [hc]; exact Handler.noConfusion)
  refine ⟨hi.stage.of_prefix rfl rfl rfl rfl ?_ ?_, hi.safe, hi.pulled, hi.link_lt,
    hi.unused_update hused _⟩
  · intro d m
    by_cases hd : d = c
    · subst hd
      simp [hc]
    · simp only [Function.update_of_ne hd]
  · unfold expected
    cases hlink : s.link with
    | none => simp
    | some d =>
      by_cases hd : d = c
      · subst hd
        cases sent <;> simp [hc, Handler.owes]
      · simp [hd]

theorem inv_close (hi : Inv s) (h : step s .close = some t) : Inv t := by
  simp only [step] at h
  split at h <;> cases h
  have hkeep (hup : s.up = []) : Stage { s with link := none, up := [], down := [] } :=
    hi.stage.of_prefix rfl rfl rfl hup.symm (fun _ _ => .rfl) (by simp [expected])
  refine ⟨?_, hi.safe, hi.pulled, by simp, hi.unused⟩
  cases hi.stage with
  | onWire m hserver hnew hup hnone hexpected =>
    exact .answered m hserver hnew.2 rfl hnone (by simp [expected])
  | atServer _ _ hup => exact hkeep hup
  | atScheduler _ _ _ _ hup => exact hkeep hup
  | answered _ _ _ hup => exact hkeep hup

theorem inv_reopen (hi : Inv s) (h : step s .reopen = some t) : Inv t := by
  simp only [step] at h
  split at h <;> cases h
  rename_i hlink
  refine ⟨hi.stage.of_prefix rfl rfl rfl rfl (fun _ _ => .rfl) ?_, hi.safe, hi.pulled, ?_, ?_⟩
  · simp [expected, hlink, hi.unused s.links le_rfl, Handler.owes]
  · rintro c hc
    cases hc
    exact Nat.lt_succ_self _
  · exact fun c hc => hi.unused c ((Nat.le_succ _).trans hc)

theorem inv_receiveFails (hi : Inv s) (hg : FailsLost s .receiveFails)
    (h : step s .receiveFails = some t) : Inv t := by
  simp only [step] at h
  split at h <;> cases h
  rename_i m hserver
  obtain ⟨hnew, hwire, hheld, hexpected⟩ := hg rfl m (by rw [hserver]; rfl)
  have hat : m < s.pulled ∧ s.up = [] ∧ NoneReceived s := by
    cases hi.stage with
    | atServer h => simp [hserver, Phase.awaited] at h
    | onWire k hserver' hnew hup =>
      obtain rfl : m = k := by simpa [hserver] using hserver'
      simp [hup] at hwire
    | atScheduler k c hserver' hnew hup hc =>
      obtain rfl : m = k := by simpa [hserver] using hserver'
      exact absurd hc (hheld c (hi.used (by rw [hc]; exact Handler.noConfusion)))
    | answered k hserver' hm hup hnone =>
      obtain rfl : m = k := by simpa [hserver] using hserver'
      exact ⟨hm, hup, hnone⟩
  refine ⟨.atServer rfl ?_ hat.2.1 hat.2.2 hexpected, hi.safe, hi.pulled, hi.link_lt, hi.unused⟩
  intro k hk
  cases hk
  exact ⟨hnew, hat.1⟩

theorem Stage.awaiting_down {s : State} (hs : Stage s) {m : Nat} {a : Answer} {down : List Answer}
    (hserver : s.server = .awaiting m) (hdown : s.down = a :: down) :
    m < s.pulled ∧ s.up = [] ∧ NoneReceived s ∧ expected s = [a] ∧ (a = .ok ↔ m ∈ s.appended) := by
  have hmem : a ∈ expected s := by simp [expected, hdown]
  cases hs with
  | answered k hserver' hm hup hnone hexpected =>
    obtain rfl : m = k := by simpa [hserver] using hserver'
    exact ⟨hm, hup, hnone, hexpected a hmem⟩
  | atServer _ _ _ _ hexpected => simp [hexpected] at hmem
  | onWire _ _ _ _ _ hexpected => simp [hexpected] at hmem
  | atScheduler _ _ _ _ _ _ _ hexpected => simp [hexpected] at hmem

theorem inv_receive (hi : Inv s) (h : step s .receive = some t) : Inv t := by
  simp only [step] at h
  split at h
  on_goal 2 => cases h
  rename_i m c a down hserver hlink hdown
  obtain ⟨hm, hup, hnone, hexpected, hok⟩ := hi.stage.awaiting_down hserver hdown
  have hrest : down ++ (s.handlers c).owes = [] := by
    simpa [expected, hdown, hlink] using hexpected
  have hexp : expected { s with down := down } = [] := by
    simpa only [expected, hlink] using hrest
  cases a with
  | ok =>
    cases h
    refine ⟨.atServer rfl (by simp) hup hnone hexp, ⟨hi.safe.1, ?_⟩, hi.pulled, hi.link_lt,
      hi.unused⟩
    intro k hk
    rcases List.mem_append.mp hk with hk | hk
    · exact hi.safe.2 k hk
    · rw [List.mem_singleton.mp hk]
      exact hok.mp rfl
  | busy | failed =>
    cases h
    have hnew : m ∉ s.appended := fun hmem => by simpa using hok.mpr hmem
    refine ⟨.atServer rfl ?_ hup hnone hexp, hi.safe, hi.pulled, hi.link_lt, hi.unused⟩
    intro k hk
    cases hk
    exact ⟨hnew, hm⟩
  | noroute | reject =>
    cases h
    exact ⟨.atServer rfl (by simp) hup hnone hexp, hi.safe, hi.pulled, hi.link_lt, hi.unused⟩

theorem inv_step {a : Action} (hi : Inv s) (hg : FailsLost s a) (h : step s a = some t) :
    Inv t := by
  cases a with
  | pull => exact inv_pull hi h
  | send => exact inv_send hi h
  | take c => exact inv_take hi h
  | decide c a => exact inv_decide hi h
  | answer c sent => exact inv_answer hi h
  | receive => exact inv_receive hi h
  | receiveFails => exact inv_receiveFails hi hg h
  | close => exact inv_close hi h
  | reopen => exact inv_reopen hi h

/-! ## Runs -/

end LambGateway.Server.Handover
