import LambGateway.Framework.HashCounter
import LambGateway.Ismg.Login
import LambGateway.Reload.Tables
import LambGateway.Web.Accounts
import Mathlib.Logic.Relation

/-!
# The main loop of ismg

The main loop waits on the sockets of all clients that are not logged in. A `CMPP_CONNECT` is
checked against the cache with several commands, between which the web goes on changing accounts,
and each check that fails has a status of its own. A client that passes gets a process of its own.
-/

namespace LambGateway.Ismg.Connect

open Framework
open Web.Accounts (AccountRecord Versioned)

/-! ## What ismg reads of an account -/

/-- `CMPP_CONNECT`, with the numbers in the order of the host. -/
structure Packet where
  sequenceId : UInt32
  version : UInt8
  sourceAddr : CString 6
  authenticatorSource : Bytes
  timestamp : UInt32

structure Setup where
  /-- `CMPP_VERSION` -/
  cmppVersion : UInt8
  /-- `cmpp_check_authentication` with a user name and a password -/
  checkAuthentication : Packet → Bytes → Bytes → Bool

/-- `lamb_account_t` as ismg loads it. -/
structure ClientAccount extends Reload.LoadedAccount where
  password : CString 63

/-- What `lamb_cache_hget` leaves in a buffer that was cleared. -/
def hgetBuffer (size : Nat) (value : Option Bytes) : Bytes :=
  let copy := value.elim [] fun str => if size < str.length then str.take (size - 1) else str
  copy ++ List.replicate (size - copy.length) 0

/-- The password that is checked, read from the buffer of 64 bytes and what follows it. -/
def lambCacheHget (hash : Option RedisHash) (answered : Bool) (beyond : Bytes) : Bytes :=
  cstr (hgetBuffer 64 (if answered then hget hash (ascii "password") else none) ++ beyond)

/-- A column of the reply to `HMGET`; a field that is not there has no bytes. -/
def element (hash : Option RedisHash) (field : Bytes) : Bytes := (hget hash field).getD []

def number (hash : Option RedisHash) (field : Bytes) : Int32 :=
  if 0 < (element hash field).length then atoi (element hash field) else 0

/-- `lamb_account_get`, given the hash. -/
def lambAccountGet (hash : Option RedisHash) : ClientAccount where
  id := number hash (ascii "id")
  username := strncpy (element hash (ascii "username")) 7
  password := strncpy (element hash (ascii "password")) 63
  spcode := strncpy (element hash (ascii "spcode")) 20
  company := number hash (ascii "company")
  address := strncpy (element hash (ascii "address")) 15
  concurrent := number hash (ascii "concurrent")
  options := number hash (ascii "options")

/-! ## The main loop -/

/-- The next command of a login. -/
inductive Stage where
  | has
  | hget
  | account (password : Bytes)
  | online (password : Bytes) (account : ClientAccount)
  | fork (password : Bytes) (account : ClientAccount)

/-- A login in progress, on a connection. -/
structure Attempt where
  conn : Nat
  packet : Packet
  stage : Stage

inductive Connection where
  | waiting
  | session (account : ClientAccount)
  | closed

/-- `cmpp_connect_resp` on a connection. -/
structure Call where
  conn : Nat
  sequenceId : UInt32
  status : UInt8
  deriving DecidableEq

/-- A session that was started, with the packet and the password that its client was let in on. -/
structure Started where
  conn : Nat
  packet : Packet
  password : Bytes
  account : ClientAccount

/-- The accounts of the web, the connections in the order of `accept`, the login in progress, the
responses, the `CMPP_CONNECT` packets taken in, and the sessions started. -/
structure State where
  web : Web.Accounts.State
  conns : List Connection
  attempt : Option Attempt
  calls : List Call
  taken : List (Nat × UInt32)
  started : List Started

def State.init (web : Web.Accounts.State) : State := ⟨web, [], none, [], [], []⟩

inductive Action where
  | web (a : Web.Accounts.Action)
  | accept
  /-- The client has closed the connection. -/
  | close (i : Nat)
  /-- A packet of a wrong format, or of another kind. -/
  | other (i : Nat)
  | connect (i : Nat) (packet : Packet)
  /-- `EXISTS account.%s` -/
  | has (answered : Bool)
  /-- `HGET account.%s password`; `beyond` is what follows the buffer in memory. -/
  | hget (answered : Bool) (beyond : Bytes)
  /-- `HMGET account.%s ...` -/
  | account (answered : Bool)
  /-- `HGET client.%d online` -/
  | online (now : Nat) (reply : Option Bytes)
  | fork (forked : Bool)

/-- The login ends with a response, and the connection goes on as `conn`. -/
def State.respond (s : State) (attempt : Attempt) (status : UInt8) (conn : Connection) : State :=
  { s with
    conns := s.conns.set attempt.conn conn
    attempt := none
    calls := s.calls ++ [⟨attempt.conn, attempt.packet.sequenceId, status⟩] }

/-- The login passes a check. -/
def State.pass (s : State) (attempt : Attempt) (stage : Stage) : State :=
  { s with attempt := some { attempt with stage } }

def step (setup : Setup) (s : State) : Action → Option State
  | .web a => (Web.Accounts.step s.web a).map fun web => { s with web }
  | .accept =>
    match s.attempt with
    | none => some { s with conns := s.conns ++ [.waiting] }
    | some _ => none
  | .close i =>
    match s.attempt, s.conns[i]? with
    | none, some .waiting => some { s with conns := s.conns.set i .closed }
    | _, _ => none
  | .other i =>
    match s.attempt, s.conns[i]? with
    | none, some .waiting => some s
    | _, _ => none
  | .connect i packet =>
    match s.attempt, s.conns[i]? with
    | none, some .waiting =>
      let attempt : Attempt := ⟨i, packet, .has⟩
      let s := { s with taken := s.taken ++ [(i, packet.sequenceId)] }
      if packet.version ≠ setup.cmppVersion then some (s.respond attempt 4 .waiting)
      else some (s.pass attempt .has)
    | _, _ => none
  | .has answered =>
    match s.attempt with
    | some ⟨i, packet, .has⟩ =>
      if answered ∧ (s.web.cache packet.sourceAddr.text).isSome then
        some (s.pass ⟨i, packet, .has⟩ .hget)
      else some (s.respond ⟨i, packet, .has⟩ 2 .waiting)
    | _ => none
  | .hget answered beyond =>
    match s.attempt with
    | some ⟨i, packet, .hget⟩ =>
      let password := lambCacheHget (s.web.cache packet.sourceAddr.text) answered beyond
      if setup.checkAuthentication packet packet.sourceAddr.text password then
        some (s.pass ⟨i, packet, .hget⟩ (.account password))
      else some (s.respond ⟨i, packet, .hget⟩ 3 .waiting)
    | _ => none
  | .account answered =>
    match s.attempt with
    | some ⟨i, packet, .account password⟩ =>
      if answered then
        some (s.pass ⟨i, packet, .account password⟩
          (.online password (lambAccountGet (s.web.cache packet.sourceAddr.text))))
      else some (s.respond ⟨i, packet, .account password⟩ 9 .closed)
    | _ => none
  | .online now reply =>
    match s.attempt with
    | some ⟨i, packet, .online password account⟩ =>
      if Login.lambIsLogin now reply then
        some (s.respond ⟨i, packet, .online password account⟩ 10 .closed)
      else some (s.pass ⟨i, packet, .online password account⟩ (.fork password account))
    | _ => none
  | .fork forked =>
    match s.attempt with
    | some ⟨i, packet, .fork password account⟩ =>
      if forked then
        -- the response is the child's first step
        some
          { s.respond ⟨i, packet, .fork password account⟩ 0 (.session account) with
            started := s.started ++ [⟨i, packet, password, account⟩] }
      else some { s with conns := s.conns.set i .closed, attempt := none }
    | _ => none

/-! ## One client's connection -/

/-- What the main loop has done for one connection: the numbers of the `CMPP_CONNECT` packets
taken in, the responses with their numbers, and the number that is still to be answered. -/
structure Line where
  conn : Option Connection
  taken : List UInt32
  answers : List (UInt32 × UInt8)
  pending : Option UInt32

/-- An attempt may be repeated after a refusal for the version, the user name or the password;
every other end of an attempt is the end of the connection in the main loop. -/
inductive Line.Step : Line → Line → Prop
  | accept {l : Line} (h : l.conn = none) : Step l { l with conn := some .waiting }
  | close {l : Line} (h : l.conn = some .waiting) (hidle : l.pending = none) :
    Step l { l with conn := some .closed }
  | take {l : Line} (sequenceId : UInt32) (h : l.conn = some .waiting) (hidle : l.pending = none) :
    Step l { l with taken := l.taken ++ [sequenceId], pending := some sequenceId }
  | refuse {l : Line} {sequenceId : UInt32} {status : UInt8} (h : l.conn = some .waiting)
    (hpending : l.pending = some sequenceId) (hstatus : status ∈ [2, 3, 4]) :
    Step l { l with answers := l.answers ++ [(sequenceId, status)], pending := none }
  | turnAway {l : Line} {sequenceId : UInt32} {status : UInt8} (h : l.conn = some .waiting)
    (hpending : l.pending = some sequenceId) (hstatus : status ∈ [9, 10]) :
    Step l
      { l with
        conn := some .closed
        answers := l.answers ++ [(sequenceId, status)]
        pending := none }
  | letIn {l : Line} {sequenceId : UInt32} (account : ClientAccount)
    (h : l.conn = some .waiting) (hpending : l.pending = some sequenceId) :
    Step l
      { l with
        conn := some (.session account)
        answers := l.answers ++ [(sequenceId, 0)]
        pending := none }
  | drop {l : Line} (h : l.conn = some .waiting) :
    Step l { l with conn := some .closed, pending := none }

def Retried (answers : List (UInt32 × UInt8)) : Prop := ∀ a ∈ answers, a.2 ∈ [2, 3, 4]

/-- What can have been said on a connection. -/
def Line.Proper (l : Line) : Prop :=
  match l.conn with
  | none => l.taken = [] ∧ l.answers = [] ∧ l.pending = none
  | some .waiting => l.taken = l.answers.map Prod.fst ++ l.pending.toList ∧ Retried l.answers
  | some (.session _) => l.taken = l.answers.map Prod.fst ∧ l.pending = none ∧
      ∃ front sequenceId, l.answers = front ++ [(sequenceId, 0)] ∧ Retried front
  | some .closed => l.pending = none ∧
      ((∃ rest, rest.length ≤ 1 ∧ l.taken = l.answers.map Prod.fst ++ rest) ∧ Retried l.answers ∨
        l.taken = l.answers.map Prod.fst ∧
          ∃ front sequenceId status, l.answers = front ++ [(sequenceId, status)] ∧
            status ∈ [9, 10] ∧ Retried front)

theorem Retried.append {answers : List (UInt32 × UInt8)} (h : Retried answers)
    {sequenceId : UInt32} {status : UInt8} (hstatus : status ∈ [2, 3, 4]) :
    Retried (answers ++ [(sequenceId, status)]) := by
  intro a ha
  rcases List.mem_append.mp ha with ha | ha
  · exact h a ha
  · rw [List.mem_singleton.mp ha]
    exact hstatus

theorem proper_step {l l' : Line} (hl : l.Proper) (h : Line.Step l l') : l'.Proper := by
  cases h with
  | accept h =>
    simp only [Line.Proper, h] at hl ⊢
    obtain ⟨htaken, hanswers, hpending⟩ := hl
    rw [htaken, hanswers, hpending]
    exact ⟨rfl, fun a ha => by cases ha⟩
  | close h hidle =>
    simp only [Line.Proper, h] at hl ⊢
    refine ⟨hidle, .inl ⟨⟨[], Nat.zero_le 1, ?_⟩, hl.2⟩⟩
    rw [hl.1, hidle]
    rfl
  | take sequenceId h hidle =>
    simp only [Line.Proper, h] at hl ⊢
    refine ⟨?_, hl.2⟩
    rw [hl.1, hidle]
    simp
  | refuse h hpending hstatus =>
    simp only [Line.Proper, h] at hl ⊢
    refine ⟨?_, hl.2.append hstatus⟩
    rw [hl.1, hpending]
    simp
  | turnAway h hpending hstatus =>
    simp only [Line.Proper, h] at hl ⊢
    refine ⟨trivial, .inr ⟨?_, l.answers, _, _, rfl, hstatus, hl.2⟩⟩
    rw [hl.1, hpending]
    simp
  | letIn account h hpending =>
    simp only [Line.Proper, h] at hl ⊢
    refine ⟨?_, trivial, l.answers, _, rfl, hl.2⟩
    rw [hl.1, hpending]
    simp
  | drop h =>
    simp only [Line.Proper, h] at hl ⊢
    refine ⟨trivial, .inl ⟨⟨l.pending.toList, ?_, hl.1⟩, hl.2⟩⟩
    cases l.pending with
    | none => exact Nat.zero_le 1
    | some _ => exact Nat.le_refl 1

theorem proper_run {l l' : Line} (hl : l.Proper) (h : Relation.ReflTransGen Line.Step l l') :
    l'.Proper := by
  induction h with
  | refl => exact hl
  | tail _ hstep ih => exact proper_step ih hstep

/-- The connection `i` in the main loop. -/
def State.line (s : State) (i : Nat) : Line where
  conn := s.conns[i]?
  taken := (s.taken.filter fun p => p.1 = i).map Prod.snd
  answers := (s.calls.filter fun c => c.conn = i).map fun c => (c.sequenceId, c.status)
  pending := s.attempt.bind fun a => if a.conn = i then some a.packet.sequenceId else none

/-! ### The main loop, seen from one connection -/

/-- A login in progress is one of a client that waits. -/
def Held (s : State) : Prop := ∀ a, s.attempt = some a → s.conns[a.conn]? = some .waiting

section Line

variable {s : State} {attempt : Attempt}

theorem line_pass (h : s.attempt = some attempt) (stage : Stage) (i : Nat) :
    (s.pass attempt stage).line i = s.line i := by
  rw [State.line, State.line, h]
  rfl

theorem line_pending (h : s.attempt = some attempt) :
    (s.line attempt.conn).pending = some attempt.packet.sequenceId := by
  simp [State.line, h]

theorem line_respond_self (_ : s.attempt = some attempt)
    (hwaiting : s.conns[attempt.conn]? = some .waiting) (status : UInt8) (conn : Connection) :
    (s.respond attempt status conn).line attempt.conn =
      { s.line attempt.conn with
        conn := some conn
        answers := (s.line attempt.conn).answers ++ [(attempt.packet.sequenceId, status)]
        pending := none } := by
  have hlt := (List.getElem?_eq_some_iff.mp hwaiting).1
  simp [State.line, State.respond, hlt]

theorem line_respond_other (h : s.attempt = some attempt) {i : Nat} (hi : attempt.conn ≠ i)
    (status : UInt8) (conn : Connection) :
    (s.respond attempt status conn).line i = s.line i := by
  simp [State.line, State.respond, h, hi]

/-- A response that lets the client try again. -/
theorem run_refuse (hs : Held s) (h : s.attempt = some attempt) {status : UInt8}
    (hstatus : status ∈ [2, 3, 4]) (i : Nat) :
    Relation.ReflTransGen Line.Step (s.line i) ((s.respond attempt status .waiting).line i) := by
  have hwaiting := hs attempt h
  by_cases hi : attempt.conn = i
  · subst hi
    rw [line_respond_self h hwaiting]
    have hstep : Line.Step (s.line attempt.conn) _ := .refuse hwaiting (line_pending h) hstatus
    rw [show (s.line attempt.conn).conn = some .waiting from hwaiting] at hstep
    exact .single hstep
  · rw [line_respond_other h hi]

theorem run_turnAway (hs : Held s) (h : s.attempt = some attempt) {status : UInt8}
    (hstatus : status ∈ [9, 10]) (i : Nat) :
    Relation.ReflTransGen Line.Step (s.line i) ((s.respond attempt status .closed).line i) := by
  have hwaiting := hs attempt h
  by_cases hi : attempt.conn = i
  · subst hi
    rw [line_respond_self h hwaiting]
    exact .single (.turnAway hwaiting (line_pending h) hstatus)
  · rw [line_respond_other h hi]

end Line

theorem line_step {setup : Setup} {s t : State} {a : Action} (hs : Held s)
    (h : step setup s a = some t) (i : Nat) :
    Relation.ReflTransGen Line.Step (s.line i) (t.line i) := by
  cases a with
  | web a =>
    obtain ⟨web, -, rfl⟩ := Option.map_eq_some_iff.mp h
    exact .refl
  | accept =>
    simp only [step] at h
    split at h <;> cases h
    next hidle =>
    by_cases hi : i = s.conns.length
    · have hnone : (s.line i).conn = none := by simp [State.line, hi]
      have hstep : Line.Step (s.line i) _ := .accept hnone
      convert Relation.ReflTransGen.single hstep using 1
      simp [State.line, hi]
    · have hsame : { s with conns := s.conns ++ [Connection.waiting] }.line i = s.line i := by
        have hget : (s.conns ++ [Connection.waiting])[i]? = s.conns[i]? := by
          rcases Nat.lt_or_gt_of_ne hi with hlt | hgt
          · exact List.getElem?_append_left hlt
          · rw [List.getElem?_eq_none (by simp; omega), List.getElem?_eq_none (by omega)]
        simp only [State.line, hget]
      rw [hsame]
  | close j =>
    simp only [step] at h
    split at h <;> cases h
    next hidle hwaiting =>
    have hlt := (List.getElem?_eq_some_iff.mp hwaiting).1
    by_cases hi : j = i
    · subst hi
      have hnone : (s.line j).pending = none := by simp [State.line, hidle]
      have hstep : Line.Step (s.line j) _ := .close hwaiting hnone
      convert Relation.ReflTransGen.single hstep using 1
      simp [State.line, hlt]
    · have hsame : { s with conns := s.conns.set j .closed }.line i = s.line i := by
        simp only [State.line, List.getElem?_set_ne hi]
      rw [hsame]
  | other j =>
    simp only [step] at h
    split at h <;> cases h
    exact .refl
  | connect j packet =>
    simp only [step] at h
    split at h
    · next hidle hwaiting =>
      let taken : State := { s with
        taken := s.taken ++ [(j, packet.sequenceId)]
        attempt := some ⟨j, packet, .has⟩ }
      have hheld : Held taken := by
        rintro a ha
        cases ha
        exact hwaiting
      have hrun : Relation.ReflTransGen Line.Step (s.line i) (taken.line i) := by
        by_cases hi : j = i
        · subst hi
          have hnone : (s.line j).pending = none := by simp [State.line, hidle]
          have hstep : Line.Step (s.line j) _ := .take packet.sequenceId hwaiting hnone
          convert Relation.ReflTransGen.single hstep using 1
          simp [State.line, taken]
        · have hsame : taken.line i = s.line i := by simp [State.line, taken, hidle, hi]
          rw [hsame]
      split at h <;> cases h
      · exact hrun.trans (run_refuse hheld rfl (by decide) i)
      · exact hrun
    · cases h
  | has answered =>
    simp only [step] at h
    split at h
    · next j packet hattempt =>
      split at h <;> cases h
      · rw [line_pass hattempt]
      · exact run_refuse hs hattempt (by decide) i
    · cases h
  | hget answered beyond =>
    simp only [step] at h
    split at h
    · next j packet hattempt =>
      split at h <;> cases h
      · rw [line_pass hattempt]
      · exact run_refuse hs hattempt (by decide) i
    · cases h
  | account answered =>
    simp only [step] at h
    split at h
    · next j packet password hattempt =>
      split at h <;> cases h
      · rw [line_pass hattempt]
      · exact run_turnAway hs hattempt (by decide) i
    · cases h
  | online now reply =>
    simp only [step] at h
    split at h
    · next j packet password account hattempt =>
      split at h <;> cases h
      · exact run_turnAway hs hattempt (by decide) i
      · rw [line_pass hattempt]
    · cases h
  | fork forked =>
    simp only [step] at h
    split at h
    · next j packet password account hattempt =>
      have hwaiting := hs _ hattempt
      split at h <;> cases h
      · by_cases hi : j = i
        · subst hi
          have hself := line_respond_self hattempt hwaiting 0 (.session account)
          have hin : Line.Step (s.line j) _ := .letIn account hwaiting (line_pending hattempt)
          rw [← hself] at hin
          exact .single hin
        · have hother := line_respond_other hattempt hi 0 (.session account)
          change Relation.ReflTransGen Line.Step (s.line i) ((s.respond _ 0 _).line i)
          rw [hother]
      · have hlt := (List.getElem?_eq_some_iff.mp hwaiting).1
        by_cases hi : j = i
        · subst hi
          have hdrop : Line.Step (s.line j) _ := .drop hwaiting
          convert Relation.ReflTransGen.single hdrop using 1
          simp [State.line, hlt]
        · have hsame : { s with conns := s.conns.set j .closed, attempt := none }.line i =
              s.line i := by
            simp [State.line, hattempt, hi]
          rw [hsame]
    · cases h

/-! ## Who is let in -/

/-- The account of a row, as far as ismg takes it over. -/
def clientAccount (row : AccountRecord) : ClientAccount where
  id := row.id
  username := strncpy row.username.text 7
  password := row.password.widen 63 (by decide)
  spcode := row.spcode
  company := row.company
  address := strncpy row.address.text 15
  concurrent := row.concurrent
  options := row.options

theorem fields_nodup (row : AccountRecord) : (row.fields.map Prod.fst).Nodup := by
  simp only [AccountRecord.fields, List.map_cons, List.map_nil]
  decide

theorem element_hash {row : AccountRecord} {field value : Bytes}
    (hp : (field, value) ∈ row.fields) : element (some row.hash) field = value := by
  rw [element, AccountRecord.hash, hget_hmset (fields_nodup row) hp none, Option.getD_some]

theorem number_hash {row : AccountRecord} {field : Bytes} {n : Int32}
    (hp : (field, decimalInt n.toInt) ∈ row.fields) : number (some row.hash) field = n := by
  rw [number, element_hash hp, if_pos (decimalInt_length_pos _), atoi_decimalInt]

theorem strncpy_cstring_eq {m n : Nat} (s : CString m) (h : m ≤ n) :
    strncpy s.text n = s.widen n h := by
  apply CString.ext
  rw [strncpy_cstring, CString.widen_text, List.take_of_length_le (s.length_le.trans h)]

/-- What ismg reads of a hash is the row that the web has stored there. -/
theorem lambAccountGet_hash (row : AccountRecord) :
    lambAccountGet (some row.hash) = clientAccount row := by
  have husername : element (some row.hash) (ascii "username") = row.username.text :=
    element_hash (by simp [AccountRecord.fields])
  have hpassword : element (some row.hash) (ascii "password") = row.password.text :=
    element_hash (by simp [AccountRecord.fields])
  have hspcode : element (some row.hash) (ascii "spcode") = row.spcode.text :=
    element_hash (by simp [AccountRecord.fields])
  have haddress : element (some row.hash) (ascii "address") = row.address.text :=
    element_hash (by simp [AccountRecord.fields])
  have hid : number (some row.hash) (ascii "id") = row.id :=
    number_hash (by simp [AccountRecord.fields])
  have hcompany : number (some row.hash) (ascii "company") = row.company :=
    number_hash (by simp [AccountRecord.fields])
  have hconcurrent : number (some row.hash) (ascii "concurrent") = row.concurrent :=
    number_hash (by simp [AccountRecord.fields])
  have hoptions : number (some row.hash) (ascii "options") = row.options :=
    number_hash (by simp [AccountRecord.fields])
  have hwide := strncpy_cstring_eq row.password (show 32 ≤ 63 by decide)
  have hspcode' := strncpy_cstring_eq row.spcode (Nat.le_refl 20)
  rw [lambAccountGet, husername, hpassword, hspcode, haddress, hid, hcompany, hconcurrent, hoptions,
    hwide, hspcode']
  rfl

theorem cstr_hgetBuffer_none (beyond : Bytes) : cstr (hgetBuffer 64 none ++ beyond) = [] := rfl

/-- The buffer has room for the password of a row and its terminator. -/
theorem lambCacheHget_hash (row : AccountRecord) (beyond : Bytes) :
    lambCacheHget (some row.hash) true beyond = row.password.text := by
  have hread : hget (some row.hash) (ascii "password") = some row.password.text :=
    hget_hmset (fields_nodup row) (by simp [AccountRecord.fields]) none
  have hlen := row.password.length_le
  obtain ⟨n, hn⟩ : ∃ n, 64 - row.password.text.length = n + 1 :=
    ⟨63 - row.password.text.length, by omega⟩
  rw [lambCacheHget, if_pos rfl, hread, hgetBuffer, Option.elim_some, if_neg (by omega), hn,
    List.replicate_succ, List.append_assoc, List.cons_append,
    cstr_of_no_nul row.password.no_nul]

theorem lambCacheHget_cases {web : Web.Accounts.State} (hweb : Versioned web) (username : Bytes)
    (answered : Bool) (beyond : Bytes) :
    lambCacheHget (web.cache username) answered beyond = [] ∨
      ∃ row ∈ web.versions, row.username.text = username ∧
        lambCacheHget (web.cache username) answered beyond = row.password.text := by
  cases answered with
  | false => exact .inl (cstr_hgetBuffer_none beyond)
  | true =>
    cases hcache : web.cache username with
    | none => exact .inl (cstr_hgetBuffer_none beyond)
    | some h =>
      obtain ⟨row, hrow, hname, rfl⟩ := hweb.copied _ _ hcache
      exact .inr ⟨row, hrow, hname, lambCacheHget_hash row beyond⟩

theorem lambAccountGet_cases {web : Web.Accounts.State} (hweb : Versioned web) (username : Bytes) :
    lambAccountGet (web.cache username) = lambAccountGet none ∨
      ∃ row ∈ web.versions, row.username.text = username ∧
        lambAccountGet (web.cache username) = clientAccount row := by
  cases hcache : web.cache username with
  | none => exact .inl rfl
  | some h =>
    obtain ⟨row, hrow, hname, rfl⟩ := hweb.copied _ _ hcache
    exact .inr ⟨row, hrow, hname, lambAccountGet_hash row⟩

/-- A packet of the right version has passed the check with a password that an account of its name
has had, or with none at all. -/
structure Authentic (setup : Setup) (versions : List AccountRecord) (packet : Packet)
    (password : Bytes) : Prop where
  version : packet.version = setup.cmppVersion
  valid : setup.checkAuthentication packet packet.sourceAddr.text password = true
  password : password = [] ∨
    ∃ row ∈ versions, row.username.text = packet.sourceAddr.text ∧ password = row.password.text

/-- The account is one that has had the packet's name, or nothing at all. -/
def Named (versions : List AccountRecord) (packet : Packet) (account : ClientAccount) : Prop :=
  account = lambAccountGet none ∨
    ∃ row ∈ versions, row.username.text = packet.sourceAddr.text ∧ account = clientAccount row

/-- The password and the account are those of one row. -/
def OfOneRow (versions : List AccountRecord) (packet : Packet) (password : Bytes)
    (account : ClientAccount) : Prop :=
  ∃ row ∈ versions, row.username.text = packet.sourceAddr.text ∧ password = row.password.text ∧
    account = clientAccount row

section Growing

variable {versions versions' : List AccountRecord} (hsub : versions ⊆ versions') {packet : Packet}
  {password : Bytes} {account : ClientAccount}
include hsub

theorem Authentic.mono {setup : Setup} (h : Authentic setup versions packet password) :
    Authentic setup versions' packet password := by
  refine ⟨h.version, h.valid, h.password.imp_right ?_⟩
  rintro ⟨row, hrow, hrest⟩
  exact ⟨row, hsub hrow, hrest⟩

theorem Named.mono (h : Named versions packet account) : Named versions' packet account := by
  refine h.imp_right ?_
  rintro ⟨row, hrow, hrest⟩
  exact ⟨row, hsub hrow, hrest⟩

theorem OfOneRow.mono (h : OfOneRow versions packet password account) :
    OfOneRow versions' packet password account := by
  obtain ⟨row, hrow, hrest⟩ := h
  exact ⟨row, hsub hrow, hrest⟩

end Growing

/-! ### What is kept through a login -/

/-- `P` of the login in progress, and `Q` of each session that was started. -/
structure Kept (P : Web.Accounts.State → Packet → Stage → Prop)
    (Q : Web.Accounts.State → Started → Prop) (s : State) : Prop where
  versioned : Versioned s.web
  held : Held s
  attempt : ∀ a, s.attempt = some a → P s.web a.packet a.stage
  started : ∀ st ∈ s.started, s.conns[st.conn]? = some (.session st.account) ∧ Q s.web st

/-- What has to be shown for `P` and `Q` to be kept by the steps that meet `guard`. -/
structure Rules (setup : Setup) (guard : State → Action → Prop)
    (P : Web.Accounts.State → Packet → Stage → Prop)
    (Q : Web.Accounts.State → Started → Prop) : Prop where
  web {s : State} {a : Web.Accounts.Action} {web : Web.Accounts.State} (hguard : guard s (.web a))
    (h : Web.Accounts.step s.web a = some web) :
    (∀ a, s.attempt = some a → P s.web a.packet a.stage → P web a.packet a.stage) ∧
      ∀ st, Q s.web st → Q web st
  connect {web : Web.Accounts.State} {packet : Packet}
    (hversion : packet.version = setup.cmppVersion) : P web packet .has
  has {web : Web.Accounts.State} {packet : Packet} (hweb : Versioned web)
    (h : P web packet .has) (hsome : (web.cache packet.sourceAddr.text).isSome) :
    P web packet .hget
  hget {s : State} {packet : Packet} {answered : Bool} {beyond : Bytes} (hweb : Versioned s.web)
    (hguard : guard s (.hget answered beyond)) (h : P s.web packet .hget)
    (hvalid : setup.checkAuthentication packet packet.sourceAddr.text
      (lambCacheHget (s.web.cache packet.sourceAddr.text) answered beyond) = true) :
    P s.web packet
      (.account (lambCacheHget (s.web.cache packet.sourceAddr.text) answered beyond))
  account {web : Web.Accounts.State} {packet : Packet} {password : Bytes} (hweb : Versioned web)
    (h : P web packet (.account password)) :
    P web packet (.online password (lambAccountGet (web.cache packet.sourceAddr.text)))
  online {web : Web.Accounts.State} {packet : Packet} {password : Bytes} {account : ClientAccount}
    (h : P web packet (.online password account)) : P web packet (.fork password account)
  fork {web : Web.Accounts.State} {packet : Packet} {password : Bytes} {account : ClientAccount}
    (h : P web packet (.fork password account)) (i : Nat) : Q web ⟨i, packet, password, account⟩

section Kept

variable {P : Web.Accounts.State → Packet → Stage → Prop}
  {Q : Web.Accounts.State → Started → Prop} {s : State} {attempt : Attempt}

/-- A client that waits has no session. -/
theorem session_set {i : Nat} (hwaiting : s.conns[i]? = some .waiting) (conn : Connection) {j : Nat}
    {account : ClientAccount} (hj : s.conns[j]? = some (.session account)) :
    (s.conns.set i conn)[j]? = some (.session account) := by
  have hne : i ≠ j := by
    rintro rfl
    rw [hwaiting] at hj
    cases hj
  rw [List.getElem?_set_ne hne]
  exact hj

theorem kept_pass (hs : Kept P Q s) (h : s.attempt = some attempt) {stage : Stage}
    (hp : P s.web attempt.packet stage) : Kept P Q (s.pass attempt stage) := by
  refine ⟨hs.versioned, ?_, ?_, hs.started⟩
  · rintro a ha
    cases ha
    exact hs.held attempt h
  · rintro a ha
    cases ha
    exact hp

theorem kept_respond (hs : Kept P Q s) (h : s.attempt = some attempt) (status : UInt8)
    (conn : Connection) : Kept P Q (s.respond attempt status conn) := by
  refine ⟨hs.versioned, nofun, nofun, ?_⟩
  intro st hst
  obtain ⟨hconn, hq⟩ := hs.started st hst
  exact ⟨session_set (hs.held attempt h) conn hconn, hq⟩

end Kept

theorem kept_step {setup : Setup} {guard : State → Action → Prop}
    {P : Web.Accounts.State → Packet → Stage → Prop} {Q : Web.Accounts.State → Started → Prop}
    (rules : Rules setup guard P Q) {s t : State} {a : Action} (hs : Kept P Q s)
    (hguard : guard s a) (h : step setup s a = some t) : Kept P Q t := by
  cases a with
  | web a =>
    obtain ⟨web, hstep, rfl⟩ := Option.map_eq_some_iff.mp h
    obtain ⟨hp, hq⟩ := rules.web hguard hstep
    refine ⟨Web.Accounts.versioned_step hs.versioned hstep, hs.held, ?_, ?_⟩
    · exact fun a ha => hp a ha (hs.attempt a ha)
    · exact fun st hst => (hs.started st hst).imp_right (hq st)
  | accept =>
    simp only [step] at h
    split at h <;> cases h
    next hidle =>
    refine ⟨hs.versioned, ?_, ?_, fun st hst => ?_⟩
    · exact fun a ha => nomatch hidle.symm.trans ha
    · exact fun a ha => nomatch hidle.symm.trans ha
    · obtain ⟨hconn, hq⟩ := hs.started st hst
      have hlt := (List.getElem?_eq_some_iff.mp hconn).1
      exact ⟨(List.getElem?_append_left hlt).trans hconn, hq⟩
  | close i =>
    simp only [step] at h
    split at h <;> cases h
    next hidle hwaiting =>
    refine ⟨hs.versioned, ?_, ?_, fun st hst => ?_⟩
    · exact fun a ha => nomatch hidle.symm.trans ha
    · exact fun a ha => nomatch hidle.symm.trans ha
    · obtain ⟨hconn, hq⟩ := hs.started st hst
      exact ⟨session_set hwaiting .closed hconn, hq⟩
  | other i =>
    simp only [step] at h
    split at h <;> cases h
    exact hs
  | connect i packet =>
    simp only [step] at h
    split at h
    · next hidle hwaiting =>
      let attempt : Attempt := ⟨i, packet, .has⟩
      have hstarted : ∀ conns : List Connection,
          (∀ (j : Nat) account, s.conns[j]? = some (Connection.session account) →
            conns[j]? = some (Connection.session account)) → ∀ st ∈ s.started,
          conns[st.conn]? = some (Connection.session st.account) ∧ Q s.web st := by
        intro conns hconns st hst
        exact (hs.started st hst).imp_left (hconns st.conn st.account)
      split at h <;> cases h
      · refine ⟨hs.versioned, nofun, nofun, ?_⟩
        exact hstarted _ fun j account hj => session_set hwaiting .waiting hj
      · next hversion =>
        refine ⟨hs.versioned, ?_, ?_, hs.started⟩
        · rintro a ha
          cases ha
          exact hwaiting
        · rintro a ha
          cases ha
          exact rules.connect (not_not.mp hversion)
    · cases h
  | has answered =>
    simp only [step] at h
    split at h
    · next i packet hattempt =>
      split at h <;> cases h
      · next hsome =>
        have hp := hs.attempt _ hattempt
        exact kept_pass hs hattempt (rules.has hs.versioned hp hsome.2)
      · exact kept_respond hs hattempt 2 .waiting
    · cases h
  | hget answered beyond =>
    simp only [step] at h
    split at h
    · next i packet hattempt =>
      split at h <;> cases h
      · next hvalid =>
        have hp := hs.attempt _ hattempt
        exact kept_pass hs hattempt (rules.hget hs.versioned hguard hp hvalid)
      · exact kept_respond hs hattempt 3 .waiting
    · cases h
  | account answered =>
    simp only [step] at h
    split at h
    · next i packet password hattempt =>
      split at h <;> cases h
      · have hp := hs.attempt _ hattempt
        exact kept_pass hs hattempt (rules.account hs.versioned hp)
      · exact kept_respond hs hattempt 9 .closed
    · cases h
  | online now reply =>
    simp only [step] at h
    split at h
    · next i packet password account hattempt =>
      split at h <;> cases h
      · exact kept_respond hs hattempt 10 .closed
      · exact kept_pass hs hattempt (rules.online (hs.attempt _ hattempt))
    · cases h
  | fork forked =>
    simp only [step] at h
    split at h
    · next i packet password account hattempt =>
      have hwaiting := hs.held _ hattempt
      split at h <;> cases h
      · have hrespond := kept_respond hs hattempt 0 (.session account)
        refine ⟨hs.versioned, hrespond.held, hrespond.attempt, fun st hst => ?_⟩
        rcases List.mem_append.mp hst with hst | hst
        · exact hrespond.started st hst
        · rw [List.mem_singleton.mp hst]
          have hlt := (List.getElem?_eq_some_iff.mp hwaiting).1
          exact ⟨List.getElem?_set_self hlt, rules.fork (hs.attempt _ hattempt) i⟩
      · refine ⟨hs.versioned, nofun, nofun, ?_⟩
        intro st hst
        obtain ⟨hconn, hq⟩ := hs.started st hst
        exact ⟨session_set hwaiting .closed hconn, hq⟩
    · cases h

/-- What a login has earned by the stage that it has come to. -/
def Stage.Earned (setup : Setup) (versions : List AccountRecord) (packet : Packet) : Stage → Prop
  | .has | .hget => packet.version = setup.cmppVersion
  | .account password => Authentic setup versions packet password
  | .online password loaded | .fork password loaded =>
    Authentic setup versions packet password ∧ Named versions packet loaded

/-- The client of a session was let in. -/
def Started.Admitted (setup : Setup) (versions : List AccountRecord) (st : Started) : Prop :=
  Authentic setup versions st.packet st.password ∧ Named versions st.packet st.account

theorem Stage.Earned.mono {setup : Setup} {versions versions' : List AccountRecord}
    {packet : Packet} (hsub : versions ⊆ versions') {stage : Stage}
    (h : stage.Earned setup versions packet) : stage.Earned setup versions' packet := by
  cases stage with
  | has | hget => exact h
  | account password => exact Authentic.mono hsub h
  | online password account | fork password account => exact ⟨h.1.mono hsub, h.2.mono hsub⟩

theorem earned_rules (setup : Setup) :
    Rules setup (fun _ _ => True)
      (fun web packet stage => stage.Earned setup web.versions packet)
      (fun web st => st.Admitted setup web.versions) where
  web _ h := by
    have hsub := Web.Accounts.versions_step h
    exact ⟨fun _ _ => Stage.Earned.mono hsub, fun _ hq => ⟨hq.1.mono hsub, hq.2.mono hsub⟩⟩
  connect hversion := hversion
  has _ h _ := h
  hget hweb _ h hvalid := ⟨h, hvalid, lambCacheHget_cases hweb _ _ _⟩
  account hweb h := ⟨h, lambAccountGet_cases hweb _⟩
  online h := h
  fork h _ := h

/-- Who is let in has earned it, and each connection is answered properly. -/
structure Inv (setup : Setup) (s : State) : Prop where
  earned : Kept (fun web packet stage => stage.Earned setup web.versions packet)
    (fun web st => st.Admitted setup web.versions) s
  proper : ∀ i, (s.line i).Proper

theorem inv_step {setup : Setup} {s t : State} {a : Action} (hs : Inv setup s)
    (h : step setup s a = some t) : Inv setup t where
  earned := kept_step (earned_rules setup) hs.earned trivial h
  proper i := proper_run (hs.proper i) (line_step hs.earned.held h i)

/-- The web takes no step while a login is in progress, and the password is answered. -/
def Undisturbed (s : State) : Action → Prop
  | .web _ => s.attempt = none
  | .hget answered _ => answered = true
  | _ => True

instance (s : State) : ∀ a, Decidable (Undisturbed s a)
  | .web _ => decidable_of_iff (s.attempt.isNone = true) Option.isNone_iff_eq_none
  | .hget answered _ => inferInstanceAs (Decidable (answered = true))
  | .accept | .close _ | .other _ | .connect _ _ | .has _ | .account _ | .online _ _ | .fork _ =>
    isTrue trivial

/-- The row that a login is about, by the stage that it has come to. -/
def Stage.Fixed (web : Web.Accounts.State) (packet : Packet) : Stage → Prop
  | .has => True
  | .hget => ∃ row ∈ web.versions, row.username.text = packet.sourceAddr.text ∧
      web.cache packet.sourceAddr.text = some row.hash
  | .account password => ∃ row ∈ web.versions, row.username.text = packet.sourceAddr.text ∧
      web.cache packet.sourceAddr.text = some row.hash ∧ password = row.password.text
  | .online password loaded | .fork password loaded =>
      OfOneRow web.versions packet password loaded

theorem fixed_rules (setup : Setup) :
    Rules setup Undisturbed (fun web packet stage => stage.Fixed web packet)
      (fun web st => OfOneRow web.versions st.packet st.password st.account) where
  web hidle h := by
    refine ⟨fun a ha => ?_, fun st hq => hq.mono (Web.Accounts.versions_step h)⟩
    exact nomatch (show _ = none from hidle).symm.trans ha
  connect _ := trivial
  has hweb _ hsome := by
    obtain ⟨h, hcache⟩ := Option.isSome_iff_exists.mp hsome
    obtain ⟨row, hrow, hname, rfl⟩ := hweb.copied _ _ hcache
    exact ⟨row, hrow, hname, hcache⟩
  hget := by
    rintro s packet answered beyond - hanswered ⟨row, hrow, hname, hcache⟩ -
    refine ⟨row, hrow, hname, hcache, ?_⟩
    obtain rfl : answered = true := hanswered
    rw [hcache]
    exact lambCacheHget_hash row beyond
  account := by
    rintro web packet password - ⟨row, hrow, hname, hcache, hpassword⟩
    refine ⟨row, hrow, hname, hpassword, ?_⟩
    rw [hcache]
    exact lambAccountGet_hash row
  online h := h
  fork h _ := h

/-! ## Runs -/

/-- In every run of the main loop and of the web, each connection is answered properly: its
`CMPP_CONNECT` packets one by one and in order, with a status that lets the client try again until
it is let in or turned away. Each session's client has passed the check with a password that an
account of its name has had or with an empty one, and has such an account or an empty one. If the
web rests while a login is in progress, the password and the account are those of one row. -/
theorem clients_let_in {setup : Setup} {table : Web.Accounts.Table}
    {cache : Bytes → Option RedisHash}
    (hstart : ∀ name, cache name = (table.named name).map AccountRecord.hash) {as : List Action}
    {s : State} (hexec : exec (step setup) (.init (.init table cache)) as = some s) :
    (∀ i, (s.line i).Proper) ∧
      (∀ st ∈ s.started, s.conns[st.conn]? = some (.session st.account) ∧
        st.Admitted setup s.web.versions) ∧
      (Guarded (step setup) Undisturbed (.init (.init table cache)) as →
        ∀ st ∈ s.started, OfOneRow s.web.versions st.packet st.password st.account) := by
  have hversioned := Web.Accounts.versioned_init hstart
  have hinit (P : Web.Accounts.State → Packet → Stage → Prop)
      (Q : Web.Accounts.State → Started → Prop) : Kept P Q (.init (.init table cache)) :=
    ⟨hversioned, nofun, nofun, nofun⟩
  have hinv : Inv setup s :=
    exec_invariant (fun _ _ _ hs h => inv_step hs h) ⟨hinit _ _, fun _ => ⟨rfl, rfl, rfl⟩⟩ hexec
  refine ⟨hinv.proper, hinv.earned.started, fun hguard st hst => ?_⟩
  have hfixed := exec_invariant_of_guarded
    (fun s a t hs hg h => kept_step (fixed_rules setup) hs hg h) (hinit _ _) hguard hexec
  exact (hfixed.started st hst).2

/-- The MD5 sum that the user lambda makes of the password at the first of May, 08:00:00. -/
def digest (username password : Bytes) (timestamp : UInt32) : Bytes :=
  if username = ascii "lambda" ∧ password = ascii "secret1" ∧ timestamp = 501080000 then
    [234, 201, 214, 128, 37, 133, 75, 185, 4, 9, 224, 103, 44, 241, 97, 40]
  else []

def digestSetup : Setup where
  cmppVersion := 0x20
  checkAuthentication packet username password :=
    !packet.authenticatorSource.isEmpty &&
      packet.authenticatorSource == digest username password packet.timestamp

def connectPacket (sequenceId : UInt32) (version : UInt8) (username : String) : Packet where
  sequenceId := sequenceId
  version := version
  sourceAddr := strncpy (ascii username) 6
  authenticatorSource := digest (ascii "lambda") (ascii "secret1") 501080000
  timestamp := 501080000

/-- An account is created, and two clients connect. The first one is let in at its third try, and
the second one is turned away. -/
def twoClients : List Action :=
  [.web (.create (Web.Accounts.plainAccount 1 "lambda" "secret1" "1069")), .web (.proceed 0 true),
    .web (.proceed 0 true), .accept, .accept, .connect 0 (connectPacket 1 0x30 "lambda"),
    .connect 0 (connectPacket 2 0x20 "sigma1"), .has true,
    .connect 0 (connectPacket 3 0x20 "lambda"), .has true, .hget true [], .account true,
    .online 8 none, .fork true,
    .connect 1 (connectPacket 1 0x20 "lambda"), .has true, .hget true [], .account true,
    .online 9 (some (decimal 8))]

theorem twoClients_let_in :
    ∃ s, exec (step digestSetup) (.init (.init Web.Accounts.emptyTable fun _ => none)) twoClients =
        some s ∧
      s.calls = [⟨0, 1, 4⟩, ⟨0, 2, 2⟩, ⟨0, 3, 0⟩, ⟨1, 1, 10⟩] ∧ s.started.length = 1 ∧
      (∀ i, (s.line i).Proper) ∧
      ∀ st ∈ s.started, OfOneRow s.web.versions st.packet st.password st.account := by
  have hend : (exec (step digestSetup) (.init (.init Web.Accounts.emptyTable fun _ => none))
      twoClients).map (fun s => (s.calls, s.started.length)) =
        some ([⟨0, 1, 4⟩, ⟨0, 2, 2⟩, ⟨0, 3, 0⟩, ⟨1, 1, 10⟩], 1) := by
    decide +kernel
  obtain ⟨s, hexec, hs⟩ := Option.map_eq_some_iff.mp hend
  obtain ⟨hcalls, hstarted⟩ := Prod.mk.inj hs
  obtain ⟨hproper, -, hrow⟩ := clients_let_in (fun _ => rfl) hexec
  exact ⟨s, hexec, hcalls, hstarted, hproper, hrow (by decide +kernel)⟩

end LambGateway.Ismg.Connect
