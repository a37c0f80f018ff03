import LambGateway.Message.Encoding
import LambGateway.Server.Billing
import Mathlib.Data.Nat.Find

/-!
# The server's work loop

What `lamb_work_loop` does with one message pulled from mt: the checks that may turn it away,
the conversion to UTF-8, the hand-over to the scheduler with its retries, and the entries for
billing and storage.
-/

namespace LambGateway.Server

open Framework Billing

structure LambStatus where
  toal : UInt64
  sub : UInt64
  rep : UInt64
  delv : UInt64
  fmt : UInt64
  blk : UInt64
  usb : UInt64
  limt : UInt64
  rejt : UInt64
  tmp : UInt64
  key : UInt64
  deriving DecidableEq

inductive Counter where
  | sub
  | fmt
  | blk
  | usb
  | limt
  | tmp
  | key
  | rejt
  deriving DecidableEq

def LambStatus.bump (s : LambStatus) : Counter → LambStatus
  | .sub => { s with sub := s.sub + 1 }
  | .fmt => { s with fmt := s.fmt + 1 }
  | .blk => { s with blk := s.blk + 1 }
  | .usb => { s with usb := s.usb + 1 }
  | .limt => { s with limt := s.limt + 1 }
  | .tmp => { s with tmp := s.tmp + 1 }
  | .key => { s with key := s.key + 1 }
  | .rejt => { s with rejt := s.rejt + 1 }

/-- `lamb_template_t`, as far as a check reads it. -/
structure LambTemplate where
  name : CString 63
  content : CString 511

/-- The account, the lists and the lookups that the checks consult. `pcre` says whether a
pattern matches a text, `behind` is the memory behind a message's content. -/
structure Env where
  account : Int32
  company : Int32
  options : Int32
  blacklist : Bytes → Bool
  unsubscribe : Bytes → Bool
  frequency : Bytes → Bool
  iconv : IconvLibrary
  templates : List LambTemplate
  keywords : List Bytes
  pcre : Bytes → Bytes → Bool
  behind : Bytes

def Env.hasOption (env : Env) (bit : Int32) : Bool := env.options &&& (1 <<< bit) != 0

/-- The allocations of the loop that may fail, `response` with the sending to mo. -/
structure Allocation where
  content : Bool
  packed : Bool
  assembled : Bool
  bill : Bool
  storage : Bool
  response : Bool

/-- `lamb_check_content`: the pattern is `^【name】content$`. -/
def lambCheckContent (pcre : Bytes → Bytes → Bool) (template : LambTemplate) (content : Bytes) :
    Bool :=
  let pattern := snprintf 512 (ascii "^" ++ [0xE3, 0x80, 0x90] ++ template.name.text ++
    [0xE3, 0x80, 0x91] ++ template.content.text ++ ascii "$")
  pcre pattern content

def lambCheckKeyword (key content : Bytes) : Bool := strstr (cstr content) key

/-- A message is turned away: the counter that is stepped, and the cause that is reported. -/
structure Rejection where
  counter : Option Counter
  cause : Int32

def Env.source (env : Env) (message : Submit) : Bytes :=
  (message.content ++ env.behind).take message.length.toNatClampNeg

def convert (env : Env) (alloc : Allocation) (message : Submit) : Fromcode → Except Rejection Submit
  | .convert fromcode =>
    if !alloc.content then .error ⟨none, 4⟩
    else
      match lambEncodedConvert env.iconv (env.source message) 512 fromcode .utf8 with
      | none => .error ⟨some .fmt, 4⟩
      | some out =>
        if out.length < 1 then .error ⟨some .fmt, 4⟩
        else .ok { message with msgfmt := 11, length := Int32.ofNat out.length, content := out }
  | _ => .ok message

/-- The template and keyword lists, and the packing of the frame for the scheduler. -/
def checkText (env : Env) (alloc : Allocation) (message : Submit) : Except Rejection Submit :=
  if env.hasOption 0 && !env.templates.any (lambCheckContent env.pcre · message.content) then
    .error ⟨some .tmp, 7⟩
  else if env.hasOption 1 && env.keywords.any (lambCheckKeyword · (message.content ++ env.behind))
  then .error ⟨some .key, 7⟩
  else if !alloc.packed then .error ⟨none, 4⟩
  else if !alloc.assembled then .error ⟨none, 4⟩
  else .ok message

/-- Everything before the scheduling, in the order of the loop. -/
def passChecks (env : Env) (alloc : Allocation) (message : Submit) : Except Rejection Submit :=
  match fromcodeOf message.msgfmt with
  | .unknown => .error ⟨some .fmt, 7⟩
  | fromcode =>
    if env.hasOption 4 && env.blacklist message.phone then .error ⟨some .blk, 7⟩
    else if env.hasOption 3 && env.unsubscribe message.phone then .error ⟨some .usb, 7⟩
    else if env.hasOption 2 && env.frequency message.phone then .error ⟨some .limt, 7⟩
    else (convert env alloc message fromcode).bind (checkText env alloc)

/-- What comes back for a send to the scheduler; `failed` is a send or a receive that fails, or
another command. -/
inductive Answer where
  | ok
  | busy
  | noroute
  | reject
  | failed
  deriving DecidableEq

def Answer.final : Answer → Bool
  | .ok | .noroute | .reject => true
  | .busy | .failed => false

/-- The scheduling loop sends again until it gets an answer that settles the message. -/
def schedule : (Nat → Answer) → Nat → Option Answer
  | _, 0 => none
  | answers, fuel + 1 =>
    if (answers 0).final then some (answers 0) else schedule (fun k => answers (k + 1)) fuel

/-- `lamb_direct_response`: the `REPORT` that goes to mo. -/
def lambDirectResponse (env : Env) (message : Submit) (cause : Int32) : Report where
  id := message.id
  account := env.account
  company := env.company
  spcode := message.spcode
  phone := message.phone
  status := cause
  submittime := []
  donetime := []

def storageRecord (env : Env) (message : Submit) : LambSubmit where
  id := message.id
  account := env.account
  company := env.company
  spid := (strncpy message.spid 6).widen 7 (by decide)
  spcode := strncpy message.spcode 20
  phone := (strncpy message.phone 11).widen 20 (by decide)
  msgfmt := message.msgfmt
  content := Content.ofBytes message.content

/-- The counters, the billing and storage queues, and the frames sent to mo. -/
structure WorkState where
  status : LambStatus
  billing : List LambBill
  storage : List LambSubmit
  reports : List Report

def respond (env : Env) (alloc : Allocation) (s : WorkState) (message : Submit) (r : Rejection) :
    WorkState :=
  { s with
    status := r.counter.elim s.status s.status.bump
    reports := if alloc.response then s.reports ++ [lambDirectResponse env message r.cause]
      else s.reports }

def settle (env : Env) (alloc : Allocation) (s : WorkState) (message : Submit) :
    Answer → WorkState
  | .ok =>
    { s with
      status := s.status.bump .sub
      billing := if alloc.bill then s.billing ++ [⟨env.company, -1⟩] else s.billing
      storage := if alloc.storage then s.storage ++ [storageRecord env message] else s.storage }
  | .noroute => respond env alloc s message ⟨none, 4⟩
  | .reject => respond env alloc s message ⟨some .rejt, 7⟩
  | .busy | .failed => s

/-- One message in `lamb_work_loop`; `none` while the scheduling loop still runs after `fuel`
rounds. -/
def lambWorkLoop (env : Env) (alloc : Allocation) (answers : Nat → Answer) (fuel : Nat)
    (s : WorkState) (message : Submit) : Option WorkState :=
  let s := { s with status.toal := s.status.toal + 1 }
  match passChecks env alloc message with
  | .error r => some (respond env alloc s message r)
  | .ok message => (schedule answers fuel).map (settle env alloc s message)

/-! ## The checks -/

theorem convert_error_cause {env : Env} {alloc : Allocation} {message : Submit}
    {fromcode : Fromcode} {r : Rejection} (h : convert env alloc message fromcode = .error r) :
    r.cause = 4 := by
  unfold convert at h
  (repeat' split at h) <;> cases h <;> rfl

theorem checkText_error_cause {env : Env} {alloc : Allocation} {message : Submit} {r : Rejection}
    (h : checkText env alloc message = .error r) : r.cause = 4 ∨ r.cause = 7 := by
  unfold checkText at h
  (repeat' split at h) <;> cases h <;> simp

def SameAddress (m m' : Submit) : Prop :=
  m'.id = m.id ∧ m'.phone = m.phone ∧ m'.spcode = m.spcode

theorem convert_eq_ok {env : Env} {alloc : Allocation} {message m' : Submit}
    {fromcode : Fromcode} (h : convert env alloc message fromcode = .ok m') :
    ∃ msgfmt length content,
      m' = { message with msgfmt := msgfmt, length := length, content := content } := by
  unfold convert at h
  (repeat' split at h) <;> cases h <;> exact ⟨_, _, _, rfl⟩

theorem checkText_eq_ok {env : Env} {alloc : Allocation} {message m' : Submit}
    (h : checkText env alloc message = .ok m') : m' = message := by
  unfold checkText at h
  (repeat' split at h) <;> cases h
  rfl

/-- A message that is turned away is reported with cause 4 or 7. -/
theorem passChecks_error_cause {env : Env} {alloc : Allocation} {message : Submit} {r : Rejection}
    (h : passChecks env alloc message = .error r) : r.cause = 4 ∨ r.cause = 7 := by
  unfold passChecks at h
  split at h
  · cases h
    exact .inr rfl
  · split at h
    · cases h
      exact .inr rfl
    · split at h
      · cases h
        exact .inr rfl
      · split at h
        · cases h
          exact .inr rfl
        · next fromcode _ _ _ _ =>
          cases hconvert : convert env alloc message (fromcodeOf message.msgfmt) with
          | error r' =>
            rw [hconvert] at h
            cases h
            exact .inl (convert_error_cause hconvert)
          | ok m' =>
            rw [hconvert] at h
            exact checkText_error_cause h

/-- A message that passes the checks is what its conversion has made of it. -/
theorem passChecks_eq_ok {env : Env} {alloc : Allocation} {message m' : Submit}
    (h : passChecks env alloc message = .ok m') :
    convert env alloc message (fromcodeOf message.msgfmt) = .ok m' := by
  unfold passChecks at h
  split at h
  · cases h
  · (repeat' split at h) <;> try cases h
    cases hconvert : convert env alloc message (fromcodeOf message.msgfmt) with
    | error r => rw [hconvert] at h; cases h
    | ok m'' =>
      rw [hconvert] at h
      rw [checkText_eq_ok h]

theorem passChecks_sameAddress {env : Env} {alloc : Allocation} {message m' : Submit}
    (h : passChecks env alloc message = .ok m') : SameAddress message m' := by
  obtain ⟨msgfmt, length, content, rfl⟩ := convert_eq_ok (passChecks_eq_ok h)
  exact ⟨rfl, rfl, rfl⟩

/-! ## The retries -/

theorem schedule_eq_some {answers : Nat → Answer} {k fuel : Nat} (hk : (answers k).final = true)
    (hbefore : ∀ j, j < k → (answers j).final = false) (hfuel : k < fuel) :
    schedule answers fuel = some (answers k) := by
  induction k generalizing answers fuel with
  | zero =>
    cases fuel with
    | zero => omega
    | succ fuel => rw [schedule, if_pos hk]
  | succ k ih =>
    cases fuel with
    | zero => omega
    | succ fuel =>
      have h0 := hbefore 0 (by omega)
      rw [schedule, if_neg (by simp [h0])]
      exact ih hk (fun j hj => hbefore (j + 1) (by omega)) (by omega)

theorem exists_first_final {answers : Nat → Answer} (h : ∃ k, (answers k).final = true) :
    ∃ k, (answers k).final = true ∧ ∀ j, j < k → (answers j).final = false := by
  refine ⟨Nat.find h, Nat.find_spec h, fun j hj => ?_⟩
  simpa using Nat.find_min h hj

/-! ## One outcome -/

/-- The first answer that settles the message is `LAMB_OK`. -/
def Taken (answers : Nat → Answer) : Prop :=
  ∃ k, answers k = .ok ∧ ∀ j, j < k → (answers j).final = false

/-- The message is charged once and stored once, and mo hears nothing. -/
structure Accepted (env : Env) (message : Submit) (s t : WorkState) : Prop where
  billing : t.billing = s.billing ++ [⟨env.company, -1⟩]
  storage : ∃ r : LambSubmit, t.storage = s.storage ++ [r] ∧ r.id = message.id
  reports : t.reports = s.reports

/-- mo gets one report for the message, which is neither charged nor stored. -/
structure Refused (message : Submit) (s t : WorkState) : Prop where
  billing : t.billing = s.billing
  storage : t.storage = s.storage
  reports : ∃ r : Report, t.reports = s.reports ++ [r] ∧ r.id = message.id ∧
    r.phone = message.phone ∧ r.spcode = message.spcode ∧ (r.status = 4 ∨ r.status = 7)

/-- The total is stepped, and at most one of the other counters. -/
def Counted (s t : WorkState) : Prop :=
  ∃ c : Option Counter, t.status =
    c.elim { s.status with toal := s.status.toal + 1 }
      { s.status with toal := s.status.toal + 1 }.bump

structure Allocation.Succeeds (alloc : Allocation) : Prop where
  content : alloc.content = true
  packed : alloc.packed = true
  assembled : alloc.assembled = true
  bill : alloc.bill = true
  storage : alloc.storage = true
  response : alloc.response = true

theorem not_accepted_and_refused {env : Env} {message : Submit} {s t : WorkState} :
    ¬(Accepted env message s t ∧ Refused message s t) := by
  rintro ⟨haccepted, hrefused⟩
  obtain ⟨r, hr, -⟩ := hrefused.reports
  rw [haccepted.reports] at hr
  simp at hr

private theorem refused_respond {env : Env} {alloc : Allocation} (halloc : alloc.response = true)
    {s : WorkState} {message m' : Submit} (hsame : SameAddress message m') {r : Rejection}
    (hcause : r.cause = 4 ∨ r.cause = 7) :
    Refused message s (respond env alloc
      { s with status.toal := s.status.toal + 1 } m' r) where
  billing := rfl
  storage := rfl
  reports := by
    refine ⟨lambDirectResponse env m' r.cause, ?_, hsame.1, hsame.2.1, hsame.2.2, hcause⟩
    simp only [respond, halloc, if_true]

private theorem accepted_settle {env : Env} {alloc : Allocation} (halloc : alloc.Succeeds)
    {s : WorkState} {message m' : Submit} (hsame : SameAddress message m') :
    Accepted env message s (settle env alloc
      { s with status.toal := s.status.toal + 1 } m' .ok) where
  billing := by simp only [settle, halloc.bill, if_true]
  storage := by
    refine ⟨storageRecord env m', ?_, hsame.1⟩
    simp only [settle, halloc.storage, if_true]
  reports := rfl

/-- Once the scheduler settles the message, the loop body ends with exactly one of the two
outcomes, however long it is run. -/
theorem lambWorkLoop_outcome (env : Env) {alloc : Allocation} (halloc : alloc.Succeeds)
    {answers : Nat → Answer} (hfinal : ∃ k, (answers k).final = true) (s : WorkState)
    (message : Submit) : ∃ N t, (∀ fuel, N ≤ fuel →
      lambWorkLoop env alloc answers fuel s message = some t) ∧ Counted s t ∧
      (Taken answers ∧ Accepted env message s t ∨ Refused message s t) := by
  have hresponse := halloc.response
  cases hchecks : passChecks env alloc message with
  | error r =>
    refine ⟨0, respond env alloc { s with status.toal := s.status.toal + 1 } message r,
      fun fuel _ => by simp only [lambWorkLoop, hchecks], ⟨r.counter, rfl⟩, .inr ?_⟩
    exact refused_respond hresponse ⟨rfl, rfl, rfl⟩ (passChecks_error_cause hchecks)
  | ok m' =>
    have hsame := passChecks_sameAddress hchecks
    obtain ⟨k, hk, hbefore⟩ := exists_first_final hfinal
    refine ⟨k + 1, settle env alloc { s with status.toal := s.status.toal + 1 } m' (answers k),
      fun fuel hfuel => ?_, ?_⟩
    · simp only [lambWorkLoop, hchecks, schedule_eq_some hk hbefore hfuel, Option.map_some]
    · cases hanswer : answers k with
      | ok => exact ⟨⟨some .sub, rfl⟩, .inl ⟨⟨k, hanswer, hbefore⟩, accepted_settle halloc hsame⟩⟩
      | noroute => exact ⟨⟨none, rfl⟩, .inr (refused_respond hresponse hsame (.inl rfl))⟩
      | reject => exact ⟨⟨some .rejt, rfl⟩, .inr (refused_respond hresponse hsame (.inr rfl))⟩
      | busy => simp [hanswer, Answer.final] at hk
      | failed => simp [hanswer, Answer.final] at hk

/-- If allocations and the sending to mo succeed and the scheduler, which answers each send, is
busy only finitely often, then every message pulled from mt ends in exactly one of two ways: the
scheduler has taken it, and it is charged once, stored once and not reported; or mo gets one
report for it, and it is neither charged nor stored. The total counter is stepped, and at most
one of the others. -/
theorem lambWorkLoop_exactly_one_outcome (env : Env) {alloc : Allocation}
    (halloc : alloc.Succeeds) {answers : Nat → Answer} (hanswers : ∀ k, answers k ≠ .failed)
    (hbusy : ∃ K, ∀ k, K ≤ k → answers k ≠ .busy) (s : WorkState) (message : Submit) :
    ∃ N t, (∀ fuel, N ≤ fuel → lambWorkLoop env alloc answers fuel s message = some t) ∧
      Counted s t ∧
      (Taken answers ∧ Accepted env message s t ∨ Refused message s t) ∧
      ¬(Accepted env message s t ∧ Refused message s t) := by
  obtain ⟨K, hK⟩ := hbusy
  have hfinal : (answers K).final = true := by
    have hfailed := hanswers K
    have hbusy := hK K (Nat.le_refl K)
    cases h : answers K <;> simp_all [Answer.final]
  obtain ⟨N, t, hrun, hcounted, houtcome⟩ :=
    lambWorkLoop_outcome env halloc ⟨K, hfinal⟩ s message
  exact ⟨N, t, hrun, hcounted, houtcome, not_accepted_and_refused⟩

/-- A message in UTF-8 for an account without options, taken after one busy answer. -/
theorem lambWorkLoop_exactly_one_outcome_busy_once :
    let env : Env := ⟨1, 1, 0, fun _ => false, fun _ => false, fun _ => false,
      ⟨⟨fun _ _ => none, fun _ => none, by simp⟩, fun _ => true⟩, [], [], fun _ _ => false, []⟩
    let s : WorkState := ⟨⟨0, 0, 0, 0, 0, 0, 0, 0, 0, 0, 0⟩, [], [], []⟩
    let message : Submit := ⟨7, 1, 1, ascii "901234", ascii "1069", ascii "13800138000", 11, 2,
      ascii "hi"⟩
    let answers : Nat → Answer := fun k => if k = 0 then .busy else .ok
    ∃ N t, (∀ fuel, N ≤ fuel →
        lambWorkLoop env ⟨true, true, true, true, true, true⟩ answers fuel s message = some t) ∧
      Counted s t ∧
      (Taken answers ∧ Accepted env message s t ∨ Refused message s t) ∧
      ¬(Accepted env message s t ∧ Refused message s t) := by
  intro env s message answers
  apply lambWorkLoop_exactly_one_outcome env ⟨rfl, rfl, rfl, rfl, rfl, rfl⟩
  · intro k
    cases k <;> simp [answers]
  · refine ⟨1, fun k hk => ?_⟩
    have hne : k ≠ 0 := by omega
    simp [answers, hne]

end LambGateway.Server
