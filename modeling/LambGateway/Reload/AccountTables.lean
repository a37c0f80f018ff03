import LambGateway.Console.Signal
import LambGateway.Framework.Renewal
import LambGateway.Framework.Requests
import LambGateway.QueueServer.Routing
import LambGateway.Reload.Tables

/-!
# What the server and the scheduler hold of an account

The web changes an account, its templates and its channels, and then sets the signal of the
account's server. On a signal the server renews its account and its tables and connects to the
scheduler again, where the new connection reads the channels. The requests of the web run
concurrently, each in several commands.
-/

namespace LambGateway.Reload.AccountTables

open Framework
open Console (signalOf)
open QueueServer.Routing (LambChannel)
open scoped List

/-! ## The database and the web -/

/-- A row of the table `channels`. -/
structure ChannelRow where
  id : Int32
  acc : Int32
  weight : Int32
  operator : Int32
  deriving DecidableEq

def ChannelRow.entry (r : ChannelRow) : LambChannel where
  id := atoi (decimalInt r.id.toInt)
  operator := atoi (decimalInt r.operator.toInt)

deriving instance DecidableEq for AccountRow

/-- The row of the account, and the tables of all accounts. -/
structure Database where
  account : AccountRow
  templates : List TemplateRow
  channels : List ChannelRow
  keywords : List KeywordRow

/-- `UPDATE account SET ... WHERE id = :id`, with the columns that are not null. -/
def AccountModel.change (account : AccountRow) (spcode : Option ColumnText)
    (company : Option Int32) (address : Option ColumnText) (options : Option Int32) : AccountRow :=
  { account with
    spcode := spcode.getD account.spcode
    company := company.getD account.company
    address := address.getD account.address
    options := options.getD account.options }

/-- `UPDATE template SET ... WHERE id = :id` -/
def TemplateModel.change (rows : List TemplateRow) (id : Int32) (acc : Option Int32)
    (name content : Option ColumnText) : List TemplateRow :=
  rows.map fun row =>
    if row.id = id then
      { row with
        acc := acc.getD row.acc
        name := name.getD row.name
        content := content.getD row.content }
    else row

/-- `DELETE FROM template WHERE id = :id` -/
def TemplateModel.delete (rows : List TemplateRow) (id : Int32) : List TemplateRow :=
  rows.filter fun row => row.id ≠ id

/-- `DELETE FROM template WHERE acc = :acc` -/
def TemplateModel.cleanup (rows : List TemplateRow) (acc : Int32) : List TemplateRow :=
  rows.filter fun row => row.acc ≠ acc

/-- `SELECT * FROM template WHERE id = %d` -/
def TemplateModel.get (rows : List TemplateRow) (id : Int32) : Option TemplateRow :=
  rows.find? fun row => row.id = id

/-- `UPDATE channels SET ... WHERE id = :id and acc = :acc` -/
def ChannelModel.change (rows : List ChannelRow) (id acc : Int32)
    (id' acc' weight operator : Option Int32) : List ChannelRow :=
  rows.map fun row =>
    if row.id = id ∧ row.acc = acc then
      { row with
        id := id'.getD row.id
        acc := acc'.getD row.acc
        weight := weight.getD row.weight
        operator := operator.getD row.operator }
    else row

/-- `DELETE FROM channels WHERE id = %d and acc = %d` -/
def ChannelModel.delete (rows : List ChannelRow) (id acc : Int32) : List ChannelRow :=
  rows.filter fun row => ¬(row.id = id ∧ row.acc = acc)

/-- `DELETE FROM channels WHERE acc = :acc` -/
def ChannelModel.cleanup (rows : List ChannelRow) (acc : Int32) : List ChannelRow :=
  rows.filter fun row => row.acc ≠ acc

/-- What is left of a request: the controller of the templates reads the account to notify from
the row, after a change and before a deletion. -/
inductive Request where
  | notify (acc : Int32)
  | reread (id : Int32)
  | delete (id acc : Int32)
  deriving DecidableEq

/-! ## The server and the scheduler -/

inductive StatLoop where
  | idle
  | polled (signal : Int32)
  /-- In `lamb_reload`, with the step that comes next. -/
  | account
  | templates
  | keywords
  | connect
  /-- `lamb_exit_cleanup` -/
  | exited
  deriving DecidableEq

/-- The row of the account and what the other tables hold, the field `signal` of `server.%d`, the
requests in progress, the server's stat loop and tables, and the channels of the connection to the
scheduler. -/
structure State where
  db : Database
  serial : Nat
  signal : Option Bytes
  requests : List Request
  statLoop : StatLoop
  sleeping : Bool
  tables : Tables
  channels : List LambChannel

inductive Action where
  | changeAccount (spcode : Option ColumnText) (company : Option Int32)
    (address : Option ColumnText) (options : Option Int32)
  | createTemplate (acc : Int32) (name content : ColumnText)
  | changeTemplate (id : Int32) (acc : Option Int32) (name content : Option ColumnText)
  | deleteTemplate (id : Int32)
  | cleanupTemplates (acc : Int32)
  | createChannel (row : ChannelRow)
  | changeChannel (id acc : Int32) (id' acc' weight operator : Option Int32)
  | deleteChannel (id acc : Int32)
  | cleanupChannels (acc : Int32)
  /-- The web changes the keywords, and notifies nobody. -/
  | changeKeywords (rows : List KeywordRow)
  /-- A request takes its next step. -/
  | proceed (i : Nat)
  | hget
  | clear
  | fetchAccount (answer : QueryResult AccountRow)
  | fetchTemplates (answer : QueryResult TemplateRow) (alloc : Nat → Bool)
  | fetchKeywords (answer : QueryResult KeywordRow) (alloc : Nat → Bool)
  /-- The server says good-bye and connects again, and the scheduler reads the channels. -/
  | connect (assembled : Bool) (answer : QueryResult ChannelRow) (alloc : Nat → Bool)

/-- The rows of an account in the order of their numbers. -/
def TemplatesOf (rows : List TemplateRow) (acc : Int32) (answer : List TemplateRow) : Prop :=
  answer ~ rows.filter (fun row => row.acc = acc) ∧ answer.Pairwise fun r r' => r.id ≤ r'.id

/-- The rows of an account in the order of their weights. -/
def ChannelsOf (rows : List ChannelRow) (acc : Int32) (answer : List ChannelRow) : Prop :=
  answer ~ rows.filter (fun row => row.acc = acc) ∧ answer.Pairwise fun r r' => r.weight ≤ r'.weight

instance (rows : List TemplateRow) (acc : Int32) (answer : List TemplateRow) :
    Decidable (TemplatesOf rows acc answer) :=
  inferInstanceAs (Decidable (_ ∧ _))

instance (rows : List ChannelRow) (acc : Int32) (answer : List ChannelRow) :
    Decidable (ChannelsOf rows acc answer) :=
  inferInstanceAs (Decidable (_ ∧ _))

/-- `lamb_get_channels`, into a list that is new. -/
def lambGetChannels (alloc : Nat → Bool) (answer : QueryResult ChannelRow) :
    Int32 × List LambChannel :=
  fetchRows 0 ChannelRow.entry alloc [] answer

/-- A request begins with its statement. -/
def State.begin (s : State) (db : Database) (request : Request) : State :=
  { s with db, requests := s.requests ++ [request] }

/-- What a request of the web does next. -/
def State.proceed (aid : Int32) (s : State) (i : Nat) : Request → State
  | .notify acc =>
    { s with
      requests := s.requests.eraseIdx i
      signal := if 0 < acc ∧ acc = aid then some (decimalInt 1) else s.signal }
  | .reread id =>
    -- `intval` of no row is 0
    { s with
      requests := s.requests.set i
        (.notify (((TemplateModel.get s.db.templates id).map TemplateRow.acc).getD 0)) }
  | .delete id acc =>
    { s with
      db := { s.db with templates := TemplateModel.delete s.db.templates id }
      requests := s.requests.set i (.notify acc) }

def step (aid : Int32) (s : State) : Action → Option State
  | .changeAccount spcode company address options => some <|
    s.begin { s.db with account := AccountModel.change s.db.account spcode company address options }
      (.notify aid)
  | .createTemplate acc name content =>
    if s.serial < 2 ^ 31 then
      let row : TemplateRow := ⟨Int32.ofNat s.serial, acc, name, content⟩
      some
        { s.begin { s.db with templates := s.db.templates ++ [row] } (.notify acc) with
          serial := s.serial + 1 }
    else none
  | .changeTemplate id acc name content => some <|
    s.begin { s.db with templates := TemplateModel.change s.db.templates id acc name content }
      (.reread id)
  | .deleteTemplate id =>
    match TemplateModel.get s.db.templates id with
    | some row => some { s with requests := s.requests ++ [.delete id row.acc] }
    | none => none
  | .cleanupTemplates acc => some <|
    s.begin { s.db with templates := TemplateModel.cleanup s.db.templates acc } (.notify acc)
  | .createChannel row => some <|
    s.begin { s.db with channels := s.db.channels ++ [row] } (.notify row.acc)
  | .changeChannel id acc id' acc' weight operator => some <|
    s.begin
      { s.db with channels := ChannelModel.change s.db.channels id acc id' acc' weight operator }
      (.notify acc)
  | .deleteChannel id acc => some <|
    s.begin { s.db with channels := ChannelModel.delete s.db.channels id acc } (.notify acc)
  | .cleanupChannels acc => some <|
    s.begin { s.db with channels := ChannelModel.cleanup s.db.channels acc } (.notify acc)
  | .changeKeywords rows => some { s with db := { s.db with keywords := rows } }
  | .proceed i => s.requests[i]?.map (s.proceed aid i)
  | .hget =>
    match s.statLoop with
    | .idle => some { s with statLoop := .polled (signalOf s.signal) }
    | _ => none
  | .clear =>
    match s.statLoop with
    | .polled signal =>
      let s := { s with signal := some (decimalInt 0) }
      if s.sleeping then some { s with statLoop := .idle }
      else if signal = 1 then some { s with statLoop := .account, sleeping := true }
      else if signal = 9 then some { s with statLoop := .exited }
      else some { s with statLoop := .idle }
    | _ => none
  | .fetchAccount answer =>
    match s.statLoop with
    | .account =>
      if ∀ rows ∈ answer, rows = [s.db.account] then
        some
          { s with
            tables := { s.tables with account := (lambAccountFetch s.tables.account answer).2 }
            statLoop := .templates }
      else none
    | _ => none
  | .fetchTemplates answer alloc =>
    match s.statLoop with
    | .templates =>
      if ∀ rows ∈ answer, TemplatesOf s.db.templates aid rows then
        let templates :=
          if s.tables.account.hasOption 0 then
            (lambGetTemplate alloc (clear s.tables.templates) answer).2
          else s.tables.templates
        some { s with tables := { s.tables with templates }, statLoop := .keywords }
      else none
    | _ => none
  | .fetchKeywords answer alloc =>
    match s.statLoop with
    | .keywords =>
      if ∀ rows ∈ answer, rows ~ s.db.keywords then
        let keywords :=
          if s.tables.account.hasOption 1 then
            (lambKeywordGetAll alloc (clear s.tables.keywords) answer).2
          else s.tables.keywords
        some { s with tables := { s.tables with keywords }, statLoop := .connect }
      else none
    | _ => none
  | .connect assembled answer alloc =>
    match s.statLoop with
    | .connect =>
      if ∀ rows ∈ answer, ChannelsOf s.db.channels aid rows then
        let channels := if assembled then (lambGetChannels alloc answer).2 else s.channels
        some { s with channels, statLoop := .idle, sleeping := false }
      else none
    | _ => none

/-! ## What the reload has renewed -/

/-- The fetches of a reload, each with its own answer, make of the tables what `lamb_reload` makes
of them. -/
theorem fetches_eq (allocTemplate allocKeyword : Nat → Bool) (tables : Tables) (answers : Answers) :
    let account := (lambAccountFetch tables.account answers.account).2
    (Server.lambReload allocTemplate allocKeyword tables answers).toTables =
      { account
        templates :=
          if account.hasOption 0 then
            (lambGetTemplate allocTemplate (clear tables.templates) answers.templates).2
          else tables.templates
        keywords :=
          if account.hasOption 1 then
            (lambKeywordGetAll allocKeyword (clear tables.keywords) answers.keywords).2
          else tables.keywords } := by
  simp only [Server.lambReload]
  split <;> split <;> rfl

/-- What the database holds of an account. -/
structure Own where
  account : AccountRow
  templates : List TemplateRow
  channels : List ChannelRow

def Database.own (db : Database) (aid : Int32) : Own where
  account := db.account
  templates := db.templates.filter fun row => row.acc = aid
  channels := db.channels.filter fun row => row.acc = aid

/-- What the server and the scheduler hold of it. -/
structure Held where
  account : LoadedAccount
  templates : List LoadedTemplate
  channels : List LambChannel

def State.held (s : State) : Held := ⟨s.tables.account, s.tables.templates, s.channels⟩

inductive Part where
  | account
  | templates
  | channels
  deriving DecidableEq

/-- The part is what a query would give. Templates count for an account that has them checked. -/
def UpToDate (own : Own) (held : Held) : Part → Prop
  | .account => held.account = own.account.entry
  | .templates => held.account.hasOption 0 = true →
      ∃ rows, rows ~ own.templates ∧ (rows.Pairwise fun r r' => r.id ≤ r'.id) ∧
        held.templates = rows.map TemplateRow.entry
  | .channels => ∃ rows, rows ~ own.channels ∧ (rows.Pairwise fun r r' => r.weight ≤ r'.weight) ∧
      held.channels = rows.map ChannelRow.entry

/-- A renewal of a part leaves those that stand before it. -/
def Renews (own : Own) (held held' : Held) : Part → Prop
  | .account => UpToDate own held' .account
  | .templates => UpToDate own held' .templates ∧ held'.account = held.account
  | .channels => UpToDate own held' .channels ∧ held'.account = held.account ∧
      held'.templates = held.templates

def parts : Renewal.Parts Part Own Held where
  order := [.account, .templates, .channels]
  Renews i own held held' := Renews own held held' i
  Current i own held := UpToDate own held i
  current_of_renews {i _ _ _} h := by
    cases i with
    | account => exact h
    | templates | channels => exact h.1
  keeps {front behind i j own held held'} horder hj hcurrent hrenews := by
    rcases front with _ | ⟨a, _ | ⟨b, front⟩⟩
    · cases hj
    · obtain ⟨rfl, rfl, -⟩ : Part.account = a ∧ Part.templates = i ∧ _ := by simpa using horder
      obtain rfl := List.mem_singleton.mp hj
      exact hrenews.2.trans hcurrent
    · have hlen := congrArg List.length horder
      obtain rfl : front = [] := by
        rw [← List.length_eq_zero_iff]
        simp only [List.length_append, List.length_cons, List.length_nil] at hlen
        omega
      obtain ⟨rfl, rfl, rfl, -⟩ :
          Part.account = a ∧ Part.templates = b ∧ Part.channels = i ∧ _ := by
        simpa using horder
      obtain ⟨-, haccount, htemplates⟩ := hrenews
      rcases List.mem_pair.mp hj with rfl | rfl
      · exact haccount.trans hcurrent
      · change held'.account.hasOption 0 = true → _
        rw [haccount, htemplates]
        exact hcurrent

/-- The request is going to notify the account: one that has changed a template, as long as the
row is there. -/
def Request.WillNotify (aid : Int32) (own : Own) : Request → Prop
  | notify acc => acc = aid
  | reread id => ∃ row ∈ own.templates, row.id = id
  | delete _ acc => acc = aid

instance (aid : Int32) (own : Own) : ∀ request, Decidable (Request.WillNotify aid own request)
  | .notify acc => inferInstanceAs (Decidable (acc = aid))
  | .reread id => inferInstanceAs (Decidable (∃ row ∈ own.templates, row.id = id))
  | .delete _ acc => inferInstanceAs (Decidable (acc = aid))

def Owed (aid : Int32) (own : Own) (requests : List Request) : Prop :=
  ∃ request ∈ requests, request.WillNotify aid own

instance (aid : Int32) (own : Own) (requests : List Request) :
    Decidable (Owed aid own requests) :=
  inferInstanceAs (Decidable (∃ request ∈ requests, request.WillNotify aid own))

def StatLoop.reader : StatLoop → Renewal.Reader Part
  | idle => .idle
  | polled signal => .looked (signal == 1)
  | account => .renewing [.account, .templates, .channels]
  | templates => .renewing [.templates, .channels]
  | keywords | connect => .renewing [.channels]
  | exited => .idle

def State.view (aid : Int32) (s : State) : Renewal.State Part Own Held where
  source := s.db.own aid
  copy := s.held
  up := signalOf s.signal == 1
  owing := decide (Owed aid (s.db.own aid) s.requests)
  reader := s.statLoop.reader

/-! ## The numbers of the templates -/

/-- A number stands for one template, and a request that is to delete it knows its account. -/
structure Keyed (templates : List TemplateRow) (serial : Nat) (requests : List Request) : Prop where
  nodup : (templates.map TemplateRow.id).Nodup
  fresh : ∀ row ∈ templates, row.id.toInt < serial
  deletes : ∀ id acc, Request.delete id acc ∈ requests → id.toInt < serial ∧
    ∀ row ∈ templates, row.id = id → row.acc = acc

namespace Keyed

variable {templates templates' : List TemplateRow} {serial : Nat}
  {requests requests' : List Request}

theorem sublist (h : Keyed templates serial requests) (hsub : templates' <+ templates) :
    Keyed templates' serial requests where
  nodup := h.nodup.sublist (hsub.map _)
  fresh row hrow := h.fresh row (hsub.subset hrow)
  deletes id acc hmem := by
    obtain ⟨hlt, hacc⟩ := h.deletes id acc hmem
    exact ⟨hlt, fun row hrow => hacc row (hsub.subset hrow)⟩

/-- Requests that delete nothing new. -/
theorem of_requests (h : Keyed templates serial requests)
    (hsub : ∀ id acc, Request.delete id acc ∈ requests' → Request.delete id acc ∈ requests) :
    Keyed templates serial requests' where
  nodup := h.nodup
  fresh := h.fresh
  deletes id acc hmem := h.deletes id acc (hsub id acc hmem)

theorem append (h : Keyed templates serial requests) {request : Request}
    (hother : ∀ id acc, request ≠ .delete id acc) :
    Keyed templates serial (requests ++ [request]) := by
  apply h.of_requests
  intro id acc hmem
  rcases List.mem_append.mp hmem with hmem | hmem
  · exact hmem
  · exact absurd (List.mem_singleton.mp hmem).symm (hother id acc)

theorem set (h : Keyed templates serial requests) (i : Nat) {request : Request}
    (hother : ∀ id acc, request ≠ .delete id acc) :
    Keyed templates serial (requests.set i request) := by
  apply h.of_requests
  intro id acc hmem
  rcases List.mem_or_eq_of_mem_set hmem with hmem | hmem
  · exact hmem
  · exact absurd hmem.symm (hother id acc)

/-- A number is given only once. -/
theorem create (h : Keyed templates serial requests) (hserial : serial < 2 ^ 31) (acc : Int32)
    (name content : ColumnText) :
    Keyed (templates ++ [⟨Int32.ofNat serial, acc, name, content⟩]) (serial + 1) requests := by
  have hid : (Int32.ofNat serial).toInt = serial := Int32.toInt_ofNat_of_lt hserial
  constructor
  · rw [List.map_append]
    refine h.nodup.append (List.nodup_singleton _) ?_
    intro id hold hnew
    obtain ⟨row, hrow, rfl⟩ := List.mem_map.mp hold
    have hlt := h.fresh row hrow
    rw [List.mem_singleton.mp hnew] at hlt
    change (Int32.ofNat serial).toInt < _ at hlt
    omega
  · intro row hrow
    rcases List.mem_append.mp hrow with hrow | hrow
    · have hlt := h.fresh row hrow
      omega
    · rw [List.mem_singleton.mp hrow]
      change (Int32.ofNat serial).toInt < _
      omega
  · intro id acc' hmem
    obtain ⟨hlt, hacc⟩ := h.deletes id acc' hmem
    refine ⟨by omega, fun row hrow he => ?_⟩
    rcases List.mem_append.mp hrow with hrow | hrow
    · exact hacc row hrow he
    · rw [List.mem_singleton.mp hrow] at he
      change Int32.ofNat serial = id at he
      rw [← he] at hlt
      omega

theorem of_map (h : Keyed templates serial requests) {f : TemplateRow → TemplateRow}
    (hid : ∀ row, (f row).id = row.id) (hacc : ∀ row ∈ templates, (f row).acc = row.acc) :
    Keyed (templates.map f) serial requests where
  nodup := by
    rw [List.map_map, show TemplateRow.id ∘ f = TemplateRow.id from funext hid]
    exact h.nodup
  fresh row' hrow' := by
    obtain ⟨row, hrow, rfl⟩ := List.mem_map.mp hrow'
    rw [hid]
    exact h.fresh row hrow
  deletes id acc hmem := by
    obtain ⟨hlt, hold⟩ := h.deletes id acc hmem
    refine ⟨hlt, fun row' hrow' he => ?_⟩
    obtain ⟨row, hrow, rfl⟩ := List.mem_map.mp hrow'
    rw [hacc row hrow]
    rw [hid] at he
    exact hold row hrow he

theorem eq_of_id (h : Keyed templates serial requests) {row row' : TemplateRow}
    (hrow : row ∈ templates) (hrow' : row' ∈ templates) (he : row.id = row'.id) : row = row' :=
  List.inj_on_of_nodup_map h.nodup hrow hrow' he

theorem get_iff (h : Keyed templates serial requests) {id : Int32} {row : TemplateRow} :
    TemplateModel.get templates id = some row ↔ row ∈ templates ∧ row.id = id :=
  find?_key_iff h.nodup

theorem beginDelete (h : Keyed templates serial requests) {id : Int32} {row : TemplateRow}
    (hget : TemplateModel.get templates id = some row) :
    Keyed templates serial (requests ++ [.delete id row.acc]) := by
  obtain ⟨hrow, hid⟩ := h.get_iff.mp hget
  refine ⟨h.nodup, h.fresh, fun id' acc hmem => ?_⟩
  rcases List.mem_append.mp hmem with hmem | hmem
  · exact h.deletes id' acc hmem
  · cases List.mem_singleton.mp hmem
    refine ⟨hid ▸ h.fresh row hrow, fun row' hrow' hid' => ?_⟩
    rw [h.eq_of_id hrow' hrow (hid'.trans hid.symm)]

end Keyed

/-! ## Steps -/

/-- The query is answered, and each row gets its entry. -/
def Fetched {ρ : Type} (answer : QueryResult ρ) (alloc : Nat → Bool) : Prop :=
  ∃ rows, answer = some rows ∧ Allocated alloc rows

instance {ρ : Type} (alloc : Nat → Bool) :
    ∀ answer : QueryResult ρ, Decidable (Fetched answer alloc)
  | none => isFalse fun ⟨_, h, _⟩ => by cases h
  | some rows => decidable_of_iff (∀ i < rows.length, alloc i = true)
      ⟨fun h => ⟨rows, rfl, h⟩, fun ⟨_, he, h⟩ => by cases he; exact h⟩

/-- A change leaves a row with its account; a signal that is set comes before the poll that clears
it, or the poll reloads anyway; the server is not told to exit; and a reload gets its rows and
connects again. -/
def Undisturbed (s : State) : Action → Prop
  | .changeTemplate id acc _ _ => ∀ a ∈ acc, ∀ row ∈ s.db.templates, row.id = id → row.acc = a
  | .changeChannel _ acc _ acc' _ _ => ∀ a ∈ acc', a = acc
  | .clear => s.statLoop = .polled 1 ∨ s.statLoop ≠ .polled 9 ∧ signalOf s.signal ≠ 1
  | .fetchAccount answer => answer.isSome = true
  | .fetchTemplates answer alloc => s.tables.account.hasOption 0 = true → Fetched answer alloc
  | .connect assembled answer alloc => assembled = true ∧ Fetched answer alloc
  | _ => True

instance (s : State) : ∀ a, Decidable (Undisturbed s a)
  | .changeTemplate id acc _ _ =>
    inferInstanceAs (Decidable (∀ a ∈ acc, ∀ row ∈ s.db.templates, row.id = id → row.acc = a))
  | .changeChannel _ acc _ acc' _ _ => inferInstanceAs (Decidable (∀ a ∈ acc', a = acc))
  | .clear => inferInstanceAs (Decidable (_ ∨ _ ∧ _))
  | .fetchAccount answer => inferInstanceAs (Decidable (answer.isSome = true))
  | .fetchTemplates _ _ => inferInstanceAs (Decidable (_ → Fetched _ _))
  | .connect _ _ _ => inferInstanceAs (Decidable (_ ∧ Fetched _ _))
  | .changeAccount .. | .createTemplate .. | .deleteTemplate _ | .cleanupTemplates _
  | .createChannel _ | .deleteChannel .. | .cleanupChannels _ | .changeKeywords _ | .proceed _
  | .hget | .fetchKeywords .. => isTrue trivial

/-- The server sleeps only in a reload. -/
def Awake (s : State) : Prop :=
  s.sleeping = true → s.statLoop ≠ .idle ∧ ∀ signal, s.statLoop ≠ .polled signal

/-- What a poll does with its signal when no reload is going on. -/
theorem clear_eq {aid : Int32} {s t : State} (hs : Awake s) (h : step aid s .clear = some t) :
    ∃ signal, s.statLoop = .polled signal ∧
      t = { s with
        signal := some (decimalInt 0)
        statLoop := if signal = 1 then .account else if signal = 9 then .exited else .idle
        sleeping := decide (signal = 1) } := by
  simp only [step] at h
  split at h
  · next signal hpolled =>
    have hnot : s.sleeping = false := by
      cases hsleeping : s.sleeping with
      | false => rfl
      | true => exact absurd hpolled ((hs hsleeping).2 signal)
    refine ⟨signal, hpolled, ?_⟩
    rw [if_neg (by rw [hnot]; exact Bool.false_ne_true)] at h
    split at h
    · next hone =>
      cases h
      simp [hone]
    · next hone =>
      split at h <;> cases h
      · next hnine => simp [hnine, hnot]
      · next hnine => simp [hone, hnine, hnot]
  · cases h

structure Good (s : State) : Prop where
  awake : Awake s
  keyed : Keyed s.db.templates s.serial s.requests

theorem good_step {aid : Int32} {s t : State} {a : Action} (hs : Good s) (hguard : Undisturbed s a)
    (h : step aid s a = some t) : Good t := by
  obtain ⟨hawake, hkeyed⟩ := hs
  cases a with
  | changeAccount | createChannel | changeChannel | deleteChannel | cleanupChannels =>
    cases h
    exact ⟨hawake, hkeyed.append fun _ _ he => by cases he⟩
  | createTemplate acc name content =>
    simp only [step] at h
    split at h <;> cases h
    next hserial =>
    exact ⟨hawake, (hkeyed.append fun _ _ he => by cases he).create hserial acc name content⟩
  | changeTemplate id acc name content =>
    cases h
    refine ⟨hawake, Keyed.of_map (hkeyed.append fun _ _ he => by cases he) ?_ ?_⟩
    · intro row
      split <;> rfl
    · intro row hrow
      split
      · next hid =>
        cases acc with
        | none => rfl
        | some a => exact (hguard a rfl row hrow hid).symm
      · rfl
  | deleteTemplate id =>
    simp only [step] at h
    split at h <;> cases h
    next row hget =>
    exact ⟨hawake, hkeyed.beginDelete hget⟩
  | cleanupTemplates acc =>
    cases h
    exact ⟨hawake, (hkeyed.append fun _ _ he => by cases he).sublist List.filter_sublist⟩
  | changeKeywords rows =>
    cases h
    exact ⟨hawake, hkeyed⟩
  | proceed i =>
    obtain ⟨request, hrequest, rfl⟩ := Option.map_eq_some_iff.mp h
    cases request with
    | notify acc =>
      refine ⟨hawake, hkeyed.of_requests fun _ _ hmem => ?_⟩
      exact (List.eraseIdx_sublist _ _).subset hmem
    | reread id => exact ⟨hawake, hkeyed.set i fun _ _ he => by cases he⟩
    | delete id acc =>
      refine ⟨hawake, Keyed.sublist (hkeyed.set i fun _ _ he => ?_) List.filter_sublist⟩
      cases he
  | hget =>
    simp only [step] at h
    split at h <;> cases h
    next hidle =>
    exact ⟨fun hsleeping => absurd hidle (hawake hsleeping).1, hkeyed⟩
  | clear =>
    obtain ⟨signal, -, rfl⟩ := clear_eq hawake h
    refine ⟨fun hsleeping => ?_, hkeyed⟩
    obtain rfl : signal = 1 := of_decide_eq_true hsleeping
    exact ⟨fun he => (by cases he), fun _ he => by cases he⟩
  | fetchAccount answer | fetchTemplates answer alloc | fetchKeywords answer alloc =>
    simp only [step] at h
    split at h
    · split at h <;> cases h
      exact ⟨fun _ => ⟨fun he => (by cases he), fun _ he => by cases he⟩, hkeyed⟩
    · cases h
  | connect assembled answer alloc =>
    simp only [step] at h
    split at h
    · split at h <;> cases h
      exact ⟨fun he => (by cases he), hkeyed⟩
    · cases h

/-! ## What the account sees of a statement -/

section Own

variable {aid : Int32}

/-- Statements for another account leave the account's rows. -/
theorem filter_ne_filter {ρ : Type} (f : ρ → Int32) {acc : Int32} (h : acc ≠ aid) (rows : List ρ) :
    (rows.filter fun row => f row ≠ acc).filter (fun row => f row = aid) =
      rows.filter fun row => f row = aid := by
  rw [List.filter_filter]
  apply List.filter_congr
  intro row _
  by_cases hrow : f row = aid
  · simpa [hrow] using Ne.symm h
  · simp [hrow]

theorem filter_map_eq {ρ : Type} (f : ρ → Int32) {g : ρ → ρ} {rows : List ρ}
    (hkeep : ∀ row ∈ rows, f (g row) = f row) (hfix : ∀ row ∈ rows, f row = aid → g row = row) :
    (rows.map g).filter (fun row => f row = aid) = rows.filter fun row => f row = aid := by
  rw [List.filter_map]
  have hfilter : rows.filter ((fun row => decide (f row = aid)) ∘ g) =
      rows.filter fun row => f row = aid := by
    apply List.filter_congr
    intro row hrow
    simp only [Function.comp_apply, hkeep row hrow]
  rw [hfilter]
  refine (List.map_congr_left fun row hrow => ?_).trans (List.map_id _)
  obtain ⟨hmem, hrow⟩ := List.mem_filter.mp hrow
  exact hfix row hmem (of_decide_eq_true hrow)

theorem own_templates {db : Database} {templates : List TemplateRow}
    (h : (templates.filter fun row => row.acc = aid) =
      db.templates.filter fun row => row.acc = aid) :
    { db with templates }.own aid = db.own aid := by
  rw [Database.own, Database.own, h]

theorem own_channels {db : Database} {channels : List ChannelRow}
    (h : (channels.filter fun row => row.acc = aid) =
      db.channels.filter fun row => row.acc = aid) :
    { db with channels }.own aid = db.own aid := by
  rw [Database.own, Database.own, h]

/-- A row that is changed and stays with the account is there to be read again. -/
theorem own_changeTemplate {db : Database} {id : Int32} {acc : Option Int32}
    {name content : Option ColumnText}
    (hkeep : ∀ a ∈ acc, ∀ row ∈ db.templates, row.id = id → row.acc = a) :
    let db' : Database :=
      { db with templates := TemplateModel.change db.templates id acc name content }
    db'.own aid = db.own aid ∨ (Request.reread id).WillNotify aid (db'.own aid) := by
  intro db'
  have hacc : ∀ row ∈ db.templates, row.id = id → acc.getD row.acc = row.acc := by
    intro row hrow hid
    cases acc with
    | none => rfl
    | some a => exact (hkeep a rfl row hrow hid).symm
  by_cases hown : ∃ row ∈ db.templates, row.acc = aid ∧ row.id = id
  · obtain ⟨row, hrow, haid, hid⟩ := hown
    right
    refine ⟨_, List.mem_filter.mpr ⟨List.mem_map_of_mem hrow, ?_⟩, ?_⟩
    · rw [if_pos hid]
      exact decide_eq_true ((hacc row hrow hid).trans haid)
    · rw [if_pos hid]
      exact hid
  · left
    apply own_templates
    apply filter_map_eq TemplateRow.acc
    · intro row hrow
      split
      · next hid => exact hacc row hrow hid
      · rfl
    · intro row hrow haid
      rw [if_neg fun hid => hown ⟨row, hrow, haid, hid⟩]

theorem own_changeChannel {db : Database} {id acc : Int32} {id' acc' weight operator : Option Int32}
    (hkeep : ∀ a ∈ acc', a = acc) :
    let db' : Database :=
      { db with channels := ChannelModel.change db.channels id acc id' acc' weight operator }
    db'.own aid = db.own aid ∨ acc = aid := by
  intro db'
  by_cases haid : acc = aid
  · exact .inr haid
  left
  apply own_channels
  apply filter_map_eq ChannelRow.acc
  · intro row _
    split
    · next hrow =>
      cases acc' with
      | none => rfl
      | some a => exact (hkeep a rfl).trans hrow.2.symm
    · rfl
  · intro row _ hrow
    rw [if_neg fun he => haid (he.2.symm.trans hrow)]

end Own

/-! ## Each step is one of the flag and the copy -/

theorem owed_middle (aid : Int32) (own : Own) (front behind : List Request) (request : Request) :
    Owed aid own (front ++ request :: behind) ↔
      request.WillNotify aid own ∨ Owed aid own (front ++ behind) := by
  simp only [Owed, List.mem_append, List.mem_cons, or_and_right, exists_or, exists_eq_left]
  exact or_left_comm

section View

variable {aid : Int32} {s : State}

theorem view_eq {t : State} (hown : t.db.own aid = s.db.own aid) (hheld : t.held = s.held)
    (hsignal : t.signal = s.signal) (hloop : t.statLoop = s.statLoop)
    (howed : Owed aid (t.db.own aid) t.requests ↔ Owed aid (s.db.own aid) s.requests) :
    t.view aid = s.view aid := by
  rw [hown] at howed
  simp only [State.view, hown, hheld, hsignal, hloop, howed]

/-- A statement that the account can see is followed by a notification. -/
theorem view_begin {db : Database} {request : Request}
    (h : db.own aid = s.db.own aid ∨ request.WillNotify aid (db.own aid)) :
    Relation.ReflTransGen (Renewal.Step parts) (s.view aid) ((s.begin db request).view aid) := by
  have howed := owed_middle aid (db.own aid) s.requests [] request
  rw [List.append_nil] at howed
  by_cases hwill : request.WillNotify aid (db.own aid)
  · have hstep : Renewal.Step parts (s.view aid) _ := .change (db.own aid)
    have htrue : Owed aid (db.own aid) (s.requests ++ [request]) := howed.mpr (.inl hwill)
    apply Relation.ReflTransGen.single
    convert hstep using 1
    simp only [State.view, State.begin, htrue]
    rfl
  · have hown := h.resolve_right hwill
    have hsame : (s.begin db request).view aid = s.view aid := by
      refine view_eq hown rfl rfl rfl (howed.trans ?_)
      rw [hown, or_iff_right (hown ▸ hwill)]
    rw [hsame]

/-- A request that goes on to notify whom it was to notify, or has just changed a row of the
account. -/
theorem view_set {i : Nat} {request request' : Request} (hget : s.requests[i]? = some request)
    {db : Database}
    (h : db.own aid = s.db.own aid ∧
        (request'.WillNotify aid (db.own aid) ↔ request.WillNotify aid (s.db.own aid)) ∨
      request'.WillNotify aid (db.own aid)) :
    Relation.ReflTransGen (Renewal.Step parts) (s.view aid)
      ({ s with db, requests := s.requests.set i request' }.view aid) := by
  obtain ⟨front, behind, hsplit, hset, -⟩ := getElem?_split hget
  have howed := owed_middle aid (db.own aid) front behind request'
  rw [← hset request'] at howed
  by_cases hwill : request'.WillNotify aid (db.own aid)
  · have hstep : Renewal.Step parts (s.view aid) _ := .change (db.own aid)
    have htrue : Owed aid (db.own aid) (s.requests.set i request') := howed.mpr (.inl hwill)
    apply Relation.ReflTransGen.single
    convert hstep using 1
    simp only [State.view, htrue]
    rfl
  · obtain ⟨hown, hiff⟩ := h.resolve_right hwill
    have hold := owed_middle aid (s.db.own aid) front behind request
    rw [← hsplit] at hold
    have hsame : { s with db, requests := s.requests.set i request' }.view aid = s.view aid := by
      refine view_eq hown rfl rfl rfl (howed.trans ?_)
      rw [hold, hiff, hown]
    rw [hsame]

/-- A request whose row is gone has nothing to say; the one that has deleted it has. -/
theorem view_proceed (hs : Good s) (haid : 0 < aid) {i : Nat} {request : Request}
    (hget : s.requests[i]? = some request) :
    Relation.ReflTransGen (Renewal.Step parts) (s.view aid)
      ((s.proceed aid i request).view aid) := by
  cases request with
  | notify acc =>
    by_cases hacc : acc = aid
    · subst hacc
      have hstep : Renewal.Step parts (s.view acc) _ :=
        .raise (decide (Owed acc (s.db.own acc) (s.requests.eraseIdx i)))
      apply Relation.ReflTransGen.single
      convert hstep using 1
      have hup : signalOf (some (decimalInt 1)) = 1 := Console.signalOf_decimalInt 1
      simp only [State.view, State.proceed, haid, true_and, if_true, hup]
      rfl
    · obtain ⟨front, behind, hsplit, -, herase⟩ := getElem?_split hget
      have hsame : (s.proceed aid i (.notify acc)).view aid = s.view aid := by
        refine view_eq rfl rfl (if_neg fun h => hacc h.2) rfl ?_
        have howed := owed_middle aid (s.db.own aid) front behind (.notify acc)
        rw [← hsplit, ← herase] at howed
        exact (howed.trans (or_iff_right hacc)).symm
      rw [hsame]
  | reread id =>
    apply view_set hget
    left
    refine ⟨rfl, ?_⟩
    change _ = aid ↔ ∃ row ∈ s.db.templates.filter _, row.id = id
    cases hrow : TemplateModel.get s.db.templates id with
    | none =>
      refine iff_of_false (Int32.ne_of_lt haid) ?_
      rintro ⟨row, hmem, hid⟩
      have hget := hs.keyed.get_iff.mpr ⟨(List.mem_filter.mp hmem).1, hid⟩
      rw [hrow] at hget
      cases hget
    | some row =>
      obtain ⟨hmem, hid⟩ := hs.keyed.get_iff.mp hrow
      constructor
      · exact fun hacc => ⟨row, List.mem_filter.mpr ⟨hmem, decide_eq_true hacc⟩, hid⟩
      · rintro ⟨row', hmem', hid'⟩
        obtain ⟨hmem', hacc⟩ := List.mem_filter.mp hmem'
        obtain rfl := hs.keyed.eq_of_id hmem' hmem (hid'.trans hid.symm)
        exact of_decide_eq_true hacc
  | delete id acc =>
    obtain ⟨-, hacc⟩ := hs.keyed.deletes id acc (List.mem_of_getElem? hget)
    apply view_set hget
    by_cases haid : acc = aid
    · exact .inr haid
    left
    refine ⟨own_templates ?_, Iff.rfl⟩
    rw [TemplateModel.delete, List.filter_filter]
    apply List.filter_congr
    intro row hrow
    by_cases hid : row.id = id
    · simp [hid, hacc row hrow hid, haid]
    · simp [hid]

theorem upToDate_templates {answer : QueryResult TemplateRow} {alloc : Nat → Bool}
    (hanswer : ∀ rows ∈ answer, TemplatesOf s.db.templates aid rows)
    (hfetched : Fetched answer alloc) (old : List LoadedTemplate) :
    ∃ rows, rows ~ (s.db.own aid).templates ∧ (rows.Pairwise fun r r' => r.id ≤ r'.id) ∧
      (lambGetTemplate alloc (clear old) answer).2 = rows.map TemplateRow.entry := by
  obtain ⟨rows, rfl, halloc⟩ := hfetched
  obtain ⟨hperm, hsorted⟩ := hanswer rows rfl
  refine ⟨rows, hperm, hsorted, ?_⟩
  rw [clear_eq_nil]
  exact (pushRows_of_allocated TemplateRow.entry [] halloc).trans (List.nil_append _)

theorem upToDate_channels {answer : QueryResult ChannelRow} {alloc : Nat → Bool}
    (hanswer : ∀ rows ∈ answer, ChannelsOf s.db.channels aid rows)
    (hfetched : Fetched answer alloc) :
    ∃ rows, rows ~ (s.db.own aid).channels ∧ (rows.Pairwise fun r r' => r.weight ≤ r'.weight) ∧
      (lambGetChannels alloc answer).2 = rows.map ChannelRow.entry := by
  obtain ⟨rows, rfl, halloc⟩ := hfetched
  obtain ⟨hperm, hsorted⟩ := hanswer rows rfl
  refine ⟨rows, hperm, hsorted, ?_⟩
  exact (pushRows_of_allocated ChannelRow.entry [] halloc).trans (List.nil_append _)

theorem view_step (haid : 0 < aid) {t : State} {a : Action} (hs : Good s)
    (hguard : Undisturbed s a) (h : step aid s a = some t) :
    Relation.ReflTransGen (Renewal.Step parts) (s.view aid) (t.view aid) := by
  cases a with
  | changeAccount spcode company address options =>
    cases h
    exact view_begin (.inr rfl)
  | createTemplate acc name content =>
    simp only [step] at h
    split at h <;> cases h
    let db : Database :=
      { s.db with templates := s.db.templates ++ [⟨Int32.ofNat s.serial, acc, name, content⟩] }
    change Relation.ReflTransGen (Renewal.Step parts) (s.view aid)
      ((s.begin db (.notify acc)).view aid)
    apply view_begin
    by_cases hacc : acc = aid
    · exact .inr hacc
    · left
      apply own_templates
      simp [List.filter_append, hacc]
  | changeTemplate id acc name content =>
    cases h
    exact view_begin (own_changeTemplate hguard)
  | deleteTemplate id =>
    simp only [step] at h
    split at h <;> cases h
    next row _ =>
    change Relation.ReflTransGen (Renewal.Step parts) (s.view aid)
      ((s.begin s.db (.delete id row.acc)).view aid)
    exact view_begin (.inl rfl)
  | cleanupTemplates acc =>
    cases h
    apply view_begin
    by_cases hacc : acc = aid
    · exact .inr hacc
    · exact .inl (own_templates (filter_ne_filter TemplateRow.acc hacc _))
  | createChannel row =>
    cases h
    apply view_begin
    by_cases hacc : row.acc = aid
    · exact .inr hacc
    · left
      apply own_channels
      simp [List.filter_append, hacc]
  | changeChannel id acc id' acc' weight operator =>
    cases h
    exact view_begin (own_changeChannel hguard)
  | deleteChannel id acc =>
    cases h
    apply view_begin
    by_cases hacc : acc = aid
    · exact .inr hacc
    · left
      apply own_channels
      rw [ChannelModel.delete, List.filter_filter]
      apply List.filter_congr
      intro row _
      by_cases hrow : row.acc = aid
      · simp [hrow, Ne.symm hacc]
      · simp [hrow]
  | cleanupChannels acc =>
    cases h
    apply view_begin
    by_cases hacc : acc = aid
    · exact .inr hacc
    · exact .inl (own_channels (filter_ne_filter ChannelRow.acc hacc _))
  | changeKeywords rows =>
    cases h
    exact .refl
  | proceed i =>
    obtain ⟨request, hget, rfl⟩ := Option.map_eq_some_iff.mp h
    exact view_proceed hs haid hget
  | hget =>
    simp only [step] at h
    split at h <;> cases h
    next hidle =>
    apply Relation.ReflTransGen.single
    apply Renewal.Step.look
    rw [State.view, hidle]
    rfl
  | clear =>
    obtain ⟨signal, hpolled, rfl⟩ := clear_eq hs.awake h
    have hdown : signalOf (some (decimalInt 0)) = 0 := Console.signalOf_decimalInt 0
    have hlooked : (s.view aid).reader = .looked (signal == 1) := by
      rw [State.view, hpolled]
      rfl
    apply Relation.ReflTransGen.single
    by_cases hone : signal = 1
    · rw [hone] at hlooked
      have hstep : Renewal.Step parts (s.view aid) _ := .takeDown hlooked
      convert hstep using 1
      simp only [State.view, hone, if_true, hdown]
      rfl
    · obtain ⟨hnine, hunset⟩ : signal ≠ 9 ∧ signalOf s.signal ≠ 1 := by
        rcases hguard with hset | ⟨hnine, hunset⟩
        · rw [hpolled] at hset
          cases hset
          exact absurd rfl hone
        · exact ⟨fun he => hnine (hpolled.trans (by rw [he])), hunset⟩
      have hfalse : (signalOf s.signal == 1) = false := beq_eq_false_iff_ne.mpr hunset
      rw [beq_eq_false_iff_ne.mpr hone] at hlooked
      have hstep : Renewal.Step parts (s.view aid) _ := .pass hlooked hfalse
      convert hstep using 1
      simp only [State.view, if_neg hone, if_neg hnine, hdown, hfalse]
      rfl
  | fetchAccount answer =>
    simp only [step] at h
    split at h
    · next hloop =>
      split at h <;> cases h
      next hanswer =>
      obtain ⟨rows, rfl⟩ := Option.isSome_iff_exists.mp hguard
      obtain rfl := hanswer rows rfl
      have hrenewing : (s.view aid).reader = .renewing [.account, .templates, .channels] := by
        rw [State.view, hloop]
        rfl
      exact .single (Renewal.Step.renew hrenewing rfl)
    · cases h
  | fetchTemplates answer alloc =>
    simp only [step] at h
    split at h
    · next hloop =>
      split at h <;> cases h
      next hanswer =>
      have hrenewing : (s.view aid).reader = .renewing [.templates, .channels] := by
        rw [State.view, hloop]
        rfl
      refine .single (Renewal.Step.renew hrenewing ⟨fun hoption => ?_, rfl⟩)
      have hoption : s.tables.account.hasOption 0 = true := hoption
      obtain ⟨rows, hperm, hsorted, hload⟩ :=
        upToDate_templates hanswer (hguard hoption) s.tables.templates
      exact ⟨rows, hperm, hsorted, (if_pos hoption).trans hload⟩
    · cases h
  | fetchKeywords answer alloc =>
    simp only [step] at h
    split at h
    · next hloop =>
      split at h <;> cases h
      have hreader : s.statLoop.reader = .renewing [.channels] := by
        rw [hloop]
        rfl
      simp only [State.view, hreader]
      exact .refl
    · cases h
  | connect assembled answer alloc =>
    simp only [step] at h
    split at h
    · next hloop =>
      split at h <;> cases h
      next hanswer =>
      obtain ⟨rfl, hfetched⟩ := hguard
      have hrenewing : (s.view aid).reader = .renewing [.channels] := by
        rw [State.view, hloop]
        rfl
      have hrows := upToDate_channels hanswer hfetched
      have hrenew : Renewal.Step parts (s.view aid)
          { s.view aid with
            copy := { s.held with channels := (lambGetChannels alloc answer).2 }
            reader := .renewing [] } :=
        .renew hrenewing ⟨hrows, rfl, rfl⟩
      exact .tail (.single hrenew) (Renewal.Step.finish rfl)
    · cases h

end View

/-! ## Runs -/

/-- The server has started, and no request is in progress. -/
def State.init (db : Database) (serial : Nat) (signal : Option Bytes) (tables : Tables)
    (channels : List LambChannel) : State :=
  ⟨db, serial, signal, [], .idle, false, tables, channels⟩

def openAccount : AccountRow where
  id := 5
  username := (strncpy (ascii "lambda") 7).column
  spcode := (strncpy (ascii "1069") 20).column
  company := 1
  address := (strncpy (ascii "127.0.0.1") 15).column
  concurrent := 0
  options := 1

def openDatabase : Database := ⟨openAccount, [], [], []⟩

def openTables : Tables := ⟨openAccount.entry, [], []⟩

def newTemplate : TemplateRow :=
  ⟨1, 5, (strncpy (ascii "lamb") 63).column, (strncpy (ascii "code .*") 511).column⟩

def newChannel : ChannelRow := ⟨3, 5, 1, 7⟩

/-- A template and a channel are added. The second signal falls into the poll that has found the
first one. -/
def twoChanges : List Action :=
  [.createTemplate 5 newTemplate.name newTemplate.content, .createChannel newChannel, .proceed 0,
    .hget, .proceed 0, .clear, .fetchAccount (some [openAccount]),
    .fetchTemplates (some [newTemplate]) fun _ => true, .fetchKeywords none fun _ => true,
    .connect true (some [newChannel]) fun _ => true]

end LambGateway.Reload.AccountTables
