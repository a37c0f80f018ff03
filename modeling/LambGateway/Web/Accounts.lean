import LambGateway.Framework.Decimal
import LambGateway.Framework.Requests
import LambGateway.Framework.RowTable
import LambGateway.Framework.ShardedStore
import LambGateway.Framework.Transition

/-!
# Accounts in the database and in the cache

The web keeps an account in a row of the table and in a hash of the cache, from which clients are
logged in. A request changes the row first and then copies it, or removes the hash, with the
commands of other requests in between.
-/

namespace LambGateway.Web.Accounts

open Framework

/-! ## The table -/

/-- A row of the table `account`. The texts are as long as the filters and the columns let them
be. -/
structure AccountRecord where
  id : Int32
  username : ColumnText
  password : CString 32
  spcode : CString 20
  company : Int32
  address : CString 32
  concurrent : Int32
  options : Int32
  description : ColumnText
  createTime : ColumnText
  deriving DecidableEq

/-- The columns as `fetch` gives them. -/
def AccountRecord.fields (row : AccountRecord) : List (Bytes × Bytes) :=
  [(ascii "id", decimalInt row.id.toInt),
    (ascii "username", row.username.text),
    (ascii "password", row.password.text),
    (ascii "spcode", row.spcode.text),
    (ascii "company", decimalInt row.company.toInt),
    (ascii "address", row.address.text),
    (ascii "concurrent", decimalInt row.concurrent.toInt),
    (ascii "options", decimalInt row.options.toInt),
    (ascii "description", row.description.text),
    (ascii "create_time", row.createTime.text)]

/-- The hash that holds a row and nothing else. -/
def AccountRecord.hash (row : AccountRecord) : RedisHash := hmset none row.fields

/-- The rows, with the constraints of the table: the columns `id`, `username` and `spcode` hold
no value twice. -/
structure Table where
  rows : List AccountRecord
  ids : (rows.map AccountRecord.id).Nodup
  usernames : (rows.map AccountRecord.username).Nodup
  spcodes : (rows.map AccountRecord.spcode).Nodup

namespace Table

/-- `INSERT INTO account`, which fails if a constraint would not hold. -/
def insert (table : Table) (row : AccountRecord) : Option Table :=
  if h : ((table.rows ++ [row]).map AccountRecord.id).Nodup ∧
      ((table.rows ++ [row]).map AccountRecord.username).Nodup ∧
      ((table.rows ++ [row]).map AccountRecord.spcode).Nodup then
    some ⟨table.rows ++ [row], h.1, h.2.1, h.2.2⟩
  else none

/-- `SELECT * FROM account WHERE id = %d` -/
def get (table : Table) (id : Int32) : Option AccountRecord :=
  table.rows.find? fun row => row.id = id

/-- `SELECT * FROM account WHERE username = :username` -/
def named (table : Table) (username : Bytes) : Option AccountRecord :=
  table.rows.find? fun row => row.username.text = username

end Table

/-- The columns that a change sets, as `checkArgs` has left them; the user name is never among
them. -/
structure Columns where
  password : Option (CString 32)
  spcode : Option (CString 20)
  company : Option Int32
  address : Option (CString 32)
  concurrent : Option Int32
  options : Option Int32
  description : Option ColumnText

def Columns.apply (columns : Columns) (row : AccountRecord) : AccountRecord :=
  { row with
    password := columns.password.getD row.password
    spcode := columns.spcode.getD row.spcode
    company := columns.company.getD row.company
    address := columns.address.getD row.address
    concurrent := columns.concurrent.getD row.concurrent
    options := columns.options.getD row.options
    description := columns.description.getD row.description }

/-- The columns of a row with the number are set. -/
def Columns.applyTo (columns : Columns) (id : Int32) (row : AccountRecord) : AccountRecord :=
  if row.id = id then columns.apply row else row

theorem Columns.applyTo_id (columns : Columns) (id : Int32) (row : AccountRecord) :
    (columns.applyTo id row).id = row.id := by
  unfold applyTo
  split <;> rfl

theorem Columns.applyTo_username (columns : Columns) (id : Int32) (row : AccountRecord) :
    (columns.applyTo id row).username = row.username := by
  unfold applyTo
  split <;> rfl

theorem map_applyTo {κ : Type} {f : AccountRecord → κ} {columns : Columns} {id : Int32}
    (h : ∀ row, f (columns.applyTo id row) = f row) (rows : List AccountRecord) :
    (rows.map (columns.applyTo id)).map f = rows.map f := by
  rw [List.map_map]
  exact List.map_congr_left fun row _ => h row

/-- `UPDATE account SET ... WHERE id = :id`, which fails if two accounts would have one code. -/
def Table.update (table : Table) (id : Int32) (columns : Columns) : Option Table :=
  if h : ((table.rows.map (columns.applyTo id)).map AccountRecord.spcode).Nodup then
    some
      { rows := table.rows.map (columns.applyTo id)
        ids := by
          rw [map_applyTo (columns.applyTo_id id)]
          exact table.ids
        usernames := by
          rw [map_applyTo (columns.applyTo_username id)]
          exact table.usernames
        spcodes := h }
  else none

/-- `DELETE FROM account WHERE id = %d` -/
def Table.delete (table : Table) (id : Int32) : Table where
  rows := table.rows.filter fun row => row.id ≠ id
  ids := table.ids.sublist (List.filter_sublist.map _)
  usernames := table.usernames.sublist (List.filter_sublist.map _)
  spcodes := table.spcodes.sublist (List.filter_sublist.map _)

/-! ## The requests -/

/-- What a request of the web does next. -/
inductive Request where
  /-- `create` selects the row that it has inserted. -/
  | created (id : Int32) (username : ColumnText)
  /-- `change` gets the row that it has updated. -/
  | changed (id : Int32)
  /-- `hMSet('account.' . $row['username'], $row)` -/
  | store (row : AccountRecord)
  /-- `delete` has got the row, if there is one, and deletes it. -/
  | delete (id : Int32) (username : Option ColumnText)
  /-- `del('account.' . $account['username'])` -/
  | forget (id : Int32) (username : Option ColumnText)

/-- The table, the hash `account.%s` of each user name, the requests in progress, and every row
that the table has held. -/
structure State where
  table : Table
  cache : Bytes → Option RedisHash
  requests : List Request
  versions : List AccountRecord

def State.init (table : Table) (cache : Bytes → Option RedisHash) : State :=
  ⟨table, cache, [], table.rows⟩

inductive Action where
  | create (row : AccountRecord)
  | change (id : Int32) (columns : Columns)
  | delete (id : Int32)
  /-- A request takes its next step; a query or a statement of it may fail. -/
  | proceed (i : Nat) (answered : Bool)

/-- A request has selected a row and goes on to store it, or is finished. -/
def State.store (s : State) (i : Nat) : Option AccountRecord → State
  | some row => { s with requests := s.requests.set i (.store row) }
  | none => { s with requests := s.requests.eraseIdx i }

def State.proceed (s : State) (i : Nat) (answered : Bool) : Request → State
  | .created _ username => s.store i (if answered then s.table.named username.text else none)
  | .changed id => s.store i (if answered then s.table.get id else none)
  | .store row =>
    { s with
      cache := Function.update s.cache row.username.text
        (some (hmset (s.cache row.username.text) row.fields))
      requests := s.requests.eraseIdx i }
  | .delete id username =>
    if answered then
      { s with table := s.table.delete id, requests := s.requests.set i (.forget id username) }
    else { s with requests := s.requests.eraseIdx i }
  | .forget _ (some username) =>
    { s with
      cache := Function.update s.cache username.text none
      requests := s.requests.eraseIdx i }
  | .forget _ none => { s with requests := s.requests.eraseIdx i }

def step (s : State) : Action → Option State
  | .create row =>
    let row := { row with concurrent := 0 }
    match s.table.insert row with
    | some table => some
      { s with
        table
        requests := s.requests ++ [.created row.id row.username]
        versions := s.versions ++ [row] }
    | none => some s
  | .change id columns =>
    match s.table.update id columns with
    | some table => some
      { s with
        table
        requests := s.requests ++ [.changed id]
        versions := s.versions ++ table.rows }
    | none => some s
  | .delete id => some
    { s with
      requests := s.requests ++ [.delete id ((s.table.get id).map AccountRecord.username)] }
  | .proceed i answered => s.requests[i]?.map (s.proceed i answered)

/-! ## What a hash holds -/

theorem fields_names (row row' : AccountRecord) :
    row.fields.map Prod.fst = row'.fields.map Prod.fst := by
  simp only [AccountRecord.fields, List.map_cons, List.map_nil]

/-- A row that is stored over another one takes the place of all its fields. -/
theorem hmset_hash (row row' : AccountRecord) : hmset (some row.hash) row'.fields = row'.hash := by
  apply hmset_congr
  intro f hf
  rw [fields_names row' row] at hf
  rw [Option.bind_some, Option.bind_none, AccountRecord.hash, hmset_of_not_mem none hf,
    Option.bind_none]

/-- Each hash is a copy of a row that the table has held. -/
def Copied (s : State) : Prop :=
  ∀ username h, s.cache username = some h →
    ∃ row ∈ s.versions, row.username.text = username ∧ h = row.hash

/-- Every row is among the versions, and so is every row that is going to be stored. -/
structure Versioned (s : State) : Prop where
  rows : ∀ row ∈ s.table.rows, row ∈ s.versions
  stored : ∀ row, Request.store row ∈ s.requests → row ∈ s.versions
  copied : Copied s

/-- The hash of a name is the row with that name. -/
def Mirrored (s : State) (username : Bytes) : Prop :=
  s.cache username = (s.table.named username).map AccountRecord.hash

theorem Table.named_mem {table : Table} {username : Bytes} {row : AccountRecord}
    (h : table.named username = some row) : row ∈ table.rows ∧ row.username.text = username :=
  ⟨List.mem_of_find?_eq_some h, by simpa using List.find?_some h⟩

theorem Table.get_mem {table : Table} {id : Int32} {row : AccountRecord}
    (h : table.get id = some row) : row ∈ table.rows ∧ row.id = id :=
  ⟨List.mem_of_find?_eq_some h, by simpa using List.find?_some h⟩

theorem Table.insert_rows {table table' : Table} {row : AccountRecord}
    (h : table.insert row = some table') : table'.rows = table.rows ++ [row] := by
  unfold Table.insert at h
  split at h <;> cases h
  rfl

theorem Table.update_rows {table table' : Table} {id : Int32} {columns : Columns}
    (h : table.update id columns = some table') :
    table'.rows = table.rows.map (columns.applyTo id) := by
  unfold Table.update at h
  split at h <;> cases h
  rfl

/-- A request that has selected a row stores a row of the table. -/
theorem versioned_store {s : State} (hs : Versioned s) (i : Nat) {row : Option AccountRecord}
    (hrow : ∀ r ∈ row, r ∈ s.table.rows) : Versioned (s.store i row) := by
  cases row with
  | some row =>
    refine ⟨hs.rows, fun r hr => ?_, hs.copied⟩
    rcases List.mem_or_eq_of_mem_set hr with hr | hr
    · exact hs.stored r hr
    · cases hr
      exact hs.rows row (hrow row rfl)
  | none =>
    exact ⟨hs.rows, fun r hr => hs.stored r ((List.eraseIdx_sublist _ _).subset hr), hs.copied⟩

theorem versioned_proceed {s : State} (hs : Versioned s) {i : Nat} {request : Request}
    (hget : s.requests[i]? = some request) (answered : Bool) :
    Versioned (s.proceed i answered request) := by
  have herase (r : AccountRecord) (hr : Request.store r ∈ s.requests.eraseIdx i) :
      r ∈ s.versions := hs.stored r ((List.eraseIdx_sublist _ _).subset hr)
  cases request with
  | created id username =>
    apply versioned_store hs
    intro row hrow
    cases answered with
    | true => exact (Table.named_mem hrow).1
    | false => cases hrow
  | changed id =>
    apply versioned_store hs
    intro row hrow
    cases answered with
    | true => exact (Table.get_mem hrow).1
    | false => cases hrow
  | store row =>
    refine ⟨hs.rows, herase, fun username h hh => ?_⟩
    have hversion := hs.stored row (List.mem_of_getElem? hget)
    by_cases hname : username = row.username.text
    · subst hname
      have hset : Function.update s.cache row.username.text
          (some (hmset (s.cache row.username.text) row.fields)) row.username.text = some h := hh
      rw [Function.update_self] at hset
      refine ⟨row, hversion, rfl, ?_⟩
      cases hold : s.cache row.username.text with
      | none =>
        rw [hold] at hset
        exact (Option.some.inj hset).symm
      | some old =>
        obtain ⟨row', -, -, rfl⟩ := hs.copied _ _ hold
        rw [hold, hmset_hash] at hset
        exact (Option.some.inj hset).symm
    · have hold : Function.update s.cache row.username.text _ username = some h := hh
      rw [Function.update_of_ne hname] at hold
      exact hs.copied username h hold
  | delete id username =>
    cases answered with
    | true =>
      refine ⟨fun row hrow => hs.rows row (List.mem_of_mem_filter hrow), fun r hr => ?_, hs.copied⟩
      rcases List.mem_or_eq_of_mem_set hr with hr | hr
      · exact hs.stored r hr
      · cases hr
    | false => exact ⟨hs.rows, herase, hs.copied⟩
  | forget id username =>
    cases username with
    | some username =>
      refine ⟨hs.rows, herase, fun name h hh => ?_⟩
      by_cases hname : name = username.text
      · subst hname
        have hnone : Function.update s.cache username.text none username.text = some h := hh
        rw [Function.update_self] at hnone
        cases hnone
      · have hold : Function.update s.cache username.text none name = some h := hh
        rw [Function.update_of_ne hname] at hold
        exact hs.copied name h hold
    | none => exact ⟨hs.rows, herase, hs.copied⟩

theorem versioned_step {s t : State} {a : Action} (hs : Versioned s) (h : step s a = some t) :
    Versioned t := by
  cases a with
  | create row =>
    simp only [step] at h
    split at h
    · next table hinsert =>
      cases h
      refine ⟨fun r hr => ?_, fun r hr => ?_, fun username h hh => ?_⟩
      · rw [Table.insert_rows hinsert] at hr
        rcases List.mem_append.mp hr with hr | hr
        · exact List.mem_append_left _ (hs.rows r hr)
        · exact List.mem_append_right _ hr
      · have hr : Request.store r ∈ s.requests := by simpa using hr
        exact List.mem_append_left _ (hs.stored r hr)
      · obtain ⟨r, hr, hname, hcopy⟩ := hs.copied username h hh
        exact ⟨r, List.mem_append_left _ hr, hname, hcopy⟩
    · cases h
      exact hs
  | change id columns =>
    simp only [step] at h
    split at h
    · next table hupdate =>
      cases h
      refine ⟨fun r hr => List.mem_append_right _ hr, fun r hr => ?_, fun username h hh => ?_⟩
      · have hr : Request.store r ∈ s.requests := by simpa using hr
        exact List.mem_append_left _ (hs.stored r hr)
      · obtain ⟨r, hr, hname, hcopy⟩ := hs.copied username h hh
        exact ⟨r, List.mem_append_left _ hr, hname, hcopy⟩
    · cases h
      exact hs
  | delete id =>
    cases h
    refine ⟨hs.rows, fun r hr => hs.stored r ?_, hs.copied⟩
    simpa using hr
  | proceed i answered =>
    obtain ⟨request, hget, rfl⟩ := Option.map_eq_some_iff.mp h
    exact versioned_proceed hs hget answered

/-- A version is never forgotten. -/
theorem versions_step {s t : State} {a : Action} (h : step s a = some t) :
    s.versions ⊆ t.versions := by
  cases a with
  | create row =>
    simp only [step] at h
    split at h <;> cases h
    · exact List.subset_append_left _ _
    · exact List.Subset.refl _
  | change id columns =>
    simp only [step] at h
    split at h <;> cases h
    · exact List.subset_append_left _ _
    · exact List.Subset.refl _
  | delete id =>
    cases h
    exact List.Subset.refl _
  | proceed i answered =>
    obtain ⟨request, -, rfl⟩ := Option.map_eq_some_iff.mp h
    have hstore (row : Option AccountRecord) : (s.store i row).versions = s.versions := by
      cases row <;> rfl
    have hsame : (s.proceed i answered request).versions = s.versions := by
      cases request with
      | created id username => exact hstore _
      | changed id => exact hstore _
      | store row => rfl
      | delete id username => cases answered <;> rfl
      | forget id username => cases username <;> rfl
    rw [hsame]
    exact List.Subset.refl _

/-! ## Requests that keep apart -/

/-- The number of the account that a request is about. -/
def Request.id : Request → Int32
  | created id _ => id
  | changed id => id
  | store row => row.id
  | delete id _ => id
  | forget id _ => id

/-- The name whose hash the request is going to remove. -/
def Request.forgets : Request → Option ColumnText
  | forget _ username => username
  | _ => none

/-- No request begins on an account, by its number or by its name, that another one is about, and
the queries are answered. -/
def Apart (s : State) : Action → Prop
  | .create row => ∀ r ∈ s.requests, r.id ≠ row.id ∧ r.forgets ≠ some row.username
  | .change id _ => ∀ r ∈ s.requests, r.id ≠ id
  | .delete id => ∀ r ∈ s.requests, r.id ≠ id
  | .proceed _ answered => answered = true

instance (s : State) : ∀ a, Decidable (Apart s a)
  | .create row =>
    inferInstanceAs (Decidable (∀ r ∈ s.requests, r.id ≠ row.id ∧ r.forgets ≠ some row.username))
  | .change id _ | .delete id => inferInstanceAs (Decidable (∀ r ∈ s.requests, r.id ≠ id))
  | .proceed _ answered => inferInstanceAs (Decidable (answered = true))

/-- What a request in progress has to find in the table. -/
def Request.Stands (table : Table) : Request → Prop
  | created id username => ∃ row ∈ table.rows, row.id = id ∧ row.username = username
  | changed _ => True
  | store row => row ∈ table.rows
  | delete id username => username = (table.get id).map AccountRecord.username
  | forget _ username => ∀ u ∈ username, ∀ row ∈ table.rows, row.username ≠ u

/-- The request is to put the hash of the name in order. -/
def Request.Puts (table : Table) (name : Bytes) : Request → Prop
  | created _ username => name = username.text
  | changed id => ∃ row ∈ table.rows, row.id = id ∧ row.username.text = name
  | store row => name = row.username.text
  | delete _ _ => False
  | forget _ username => ∃ u ∈ username, name = u.text

structure Inv (s : State) : Prop where
  distinct : (s.requests.map Request.id).Nodup
  standing : ∀ r ∈ s.requests, r.Stands s.table
  mirrored : ∀ name, Mirrored s name ∨ ∃ r ∈ s.requests, r.Puts s.table name

theorem Table.text_nodup (table : Table) :
    (table.rows.map fun row => row.username.text).Nodup := by
  have htexts : (table.rows.map AccountRecord.username).map ColumnText.text =
      table.rows.map fun row => row.username.text := List.map_map
  rw [← htexts]
  exact table.usernames.map fun _ _ h => ColumnText.ext h

theorem Table.named_iff {table : Table} {name : Bytes} {row : AccountRecord} :
    table.named name = some row ↔ row ∈ table.rows ∧ row.username.text = name :=
  find?_key_iff table.text_nodup

theorem Table.get_iff {table : Table} {id : Int32} {row : AccountRecord} :
    table.get id = some row ↔ row ∈ table.rows ∧ row.id = id :=
  find?_key_iff table.ids

theorem Table.named_congr {table table' : Table} {name : Bytes}
    (h : ∀ row, row.username.text = name → (row ∈ table'.rows ↔ row ∈ table.rows)) :
    table'.named name = table.named name :=
  find?_key_congr table.text_nodup table'.text_nodup h

theorem Table.get_congr {table table' : Table} {id : Int32}
    (h : ∀ row, row.id = id → (row ∈ table'.rows ↔ row ∈ table.rows)) :
    table'.get id = table.get id :=
  find?_key_congr table.ids table'.ids h

theorem Table.eq_of_username {table : Table} {row row' : AccountRecord} (h : row ∈ table.rows)
    (h' : row' ∈ table.rows) (he : row.username = row'.username) : row = row' :=
  List.inj_on_of_nodup_map table.usernames h h' he

theorem Table.eq_of_id {table : Table} {row row' : AccountRecord} (h : row ∈ table.rows)
    (h' : row' ∈ table.rows) (he : row.id = row'.id) : row = row' :=
  List.inj_on_of_nodup_map table.ids h h' he

/-! ### Statements -/

/-- A request stands as before where a statement was about another account. -/
theorem Request.Stands.of_other {table table' : Table} {id : Int32} {r : Request}
    (hr : r.Stands table) (hid : r.id ≠ id)
    (hrows : ∀ row, row.id ≠ id → (row ∈ table'.rows ↔ row ∈ table.rows))
    (hnames : ∀ row' ∈ table'.rows, row'.id = id →
      ∀ u, r = .forget r.id (some u) → row'.username ≠ u) :
    r.Stands table' := by
  cases r with
  | created i username =>
    obtain ⟨row, hrow, hi, husername⟩ := hr
    exact ⟨row, (hrows row (hi ▸ hid)).mpr hrow, hi, husername⟩
  | changed i => trivial
  | store row => exact (hrows row hid).mpr hr
  | delete i username =>
    have hget : table'.get i = table.get i := by
      apply Table.get_congr
      exact fun row hi => hrows row (hi ▸ hid)
    exact hr.trans (by rw [hget])
  | forget i username =>
    rintro u hu row hrow
    obtain rfl : username = some u := hu
    by_cases hi : row.id = id
    · exact hnames row hrow hi u rfl
    · exact hr u rfl row ((hrows row hi).mp hrow)

theorem mem_update_iff {table table' : Table} {id : Int32} {columns : Columns}
    (h : table.update id columns = some table') {row : AccountRecord} (hid : row.id ≠ id) :
    row ∈ table'.rows ↔ row ∈ table.rows := by
  rw [Table.update_rows h, List.mem_map]
  constructor
  · rintro ⟨old, hold, rfl⟩
    rw [Columns.applyTo_id] at hid
    rw [Columns.applyTo, if_neg hid]
    exact hold
  · intro hrow
    exact ⟨row, hrow, if_neg hid⟩

theorem mem_insert_iff {table table' : Table} {row : AccountRecord}
    (h : table.insert row = some table') {r : AccountRecord} :
    r ∈ table'.rows ↔ r ∈ table.rows ∨ r = row := by
  rw [Table.insert_rows h, List.mem_append, List.mem_singleton]

theorem mem_delete_iff {table : Table} {id : Int32} {row : AccountRecord} :
    row ∈ (table.delete id).rows ↔ row ∈ table.rows ∧ row.id ≠ id := by
  rw [Table.delete, List.mem_filter]
  simp

/-- An update leaves every account its name. -/
theorem exists_update_iff {table table' : Table} {id : Int32} {columns : Columns}
    (h : table.update id columns = some table') {P : Int32 → ColumnText → Prop} :
    (∃ row ∈ table'.rows, P row.id row.username) ↔ ∃ row ∈ table.rows, P row.id row.username := by
  rw [Table.update_rows h]
  simp only [List.mem_map, exists_exists_and_eq_and, Columns.applyTo_id, Columns.applyTo_username]

theorem inv_create {s : State} {row : AccountRecord} {table : Table} (hs : Inv s)
    (hapart : ∀ r ∈ s.requests, r.id ≠ row.id ∧ r.forgets ≠ some row.username)
    (hinsert : s.table.insert row = some table) (versions : List AccountRecord) :
    Inv { s with
      table, versions, requests := s.requests ++ [.created row.id row.username] } := by
  have hrows : ∀ r, r.id ≠ row.id → (r ∈ table.rows ↔ r ∈ s.table.rows) := by
    intro r hr
    rw [mem_insert_iff hinsert, or_iff_left fun he => hr (by rw [he])]
  have hnew : ∀ r ∈ table.rows, r.id = row.id → r = row := by
    intro r hr hid
    exact Table.eq_of_id hr ((mem_insert_iff hinsert).mpr (.inr rfl)) hid
  constructor
  · rw [List.map_append]
    refine hs.distinct.append (List.nodup_singleton _) ?_
    intro id hold hid
    obtain ⟨r, hr, rfl⟩ := List.mem_map.mp hold
    exact (hapart r hr).1 (List.mem_singleton.mp hid)
  · intro r hr
    rcases List.mem_append.mp hr with hr | hr
    · refine (hs.standing r hr).of_other (hapart r hr).1 hrows ?_
      rintro r' hr' hid u he hname
      rw [hnew r' hr' hid] at hname
      apply (hapart r hr).2
      rw [he, hname]
      rfl
    · rw [List.mem_singleton.mp hr]
      exact ⟨row, (mem_insert_iff hinsert).mpr (.inr rfl), rfl, rfl⟩
  · intro name
    by_cases hname : name = row.username.text
    · exact .inr ⟨.created row.id row.username, by simp, hname⟩
    · rcases hs.mirrored name with hmirrored | ⟨r, hr, hputs⟩
      · left
        refine hmirrored.trans (congrArg _ (Table.named_congr fun r hr => ?_).symm)
        rw [mem_insert_iff hinsert, or_iff_left fun he => hname (by rw [← hr, he])]
      · refine .inr ⟨r, List.mem_append_left _ hr, ?_⟩
        cases r with
        | changed id =>
          obtain ⟨r, hr, hid⟩ := hputs
          exact ⟨r, (mem_insert_iff hinsert).mpr (.inl hr), hid⟩
        | created | store | delete | forget => exact hputs

theorem inv_change {s : State} {id : Int32} {columns : Columns} {table : Table} (hs : Inv s)
    (hapart : ∀ r ∈ s.requests, r.id ≠ id) (hupdate : s.table.update id columns = some table)
    (versions : List AccountRecord) :
    Inv { s with table, versions, requests := s.requests ++ [.changed id] } := by
  have hnamed (P : Int32 → ColumnText → Prop) := exists_update_iff hupdate (P := P)
  constructor
  · rw [List.map_append]
    refine hs.distinct.append (List.nodup_singleton _) ?_
    intro i hold hi
    obtain ⟨r, hr, rfl⟩ := List.mem_map.mp hold
    exact hapart r hr (List.mem_singleton.mp hi)
  · intro r hr
    rcases List.mem_append.mp hr with hr | hr
    · refine (hs.standing r hr).of_other (hapart r hr) ?_ ?_
      · exact fun row hid => mem_update_iff hupdate hid
      · rintro row hrow - u he hname
        obtain ⟨old, hold, hu⟩ := (hnamed fun _ username => username = u).mp ⟨row, hrow, hname⟩
        have hstands := hs.standing r hr
        rw [he] at hstands
        exact hstands u rfl old hold hu
    · rw [List.mem_singleton.mp hr]
      trivial
  · intro name
    by_cases hname : ∃ row ∈ table.rows, row.id = id ∧ row.username.text = name
    · exact .inr ⟨.changed id, by simp, hname⟩
    · rcases hs.mirrored name with hmirrored | ⟨r, hr, hputs⟩
      · left
        refine hmirrored.trans (congrArg _ (Table.named_congr fun row hrow => ?_).symm)
        by_cases hid : row.id = id
        · refine iff_of_false (fun hmem => hname ⟨row, hmem, hid, hrow⟩) fun hmem => hname ?_
          exact (hnamed fun i u => i = id ∧ u.text = name).mpr ⟨row, hmem, hid, hrow⟩
        · exact mem_update_iff hupdate hid
      · refine .inr ⟨r, List.mem_append_left _ hr, ?_⟩
        cases r with
        | changed i => exact (hnamed fun j u => j = i ∧ u.text = name).mpr hputs
        | created | store | delete | forget => exact hputs

theorem inv_beginDelete {s : State} {id : Int32} (hs : Inv s)
    (hapart : ∀ r ∈ s.requests, r.id ≠ id) :
    Inv { s with
      requests := s.requests ++ [.delete id ((s.table.get id).map AccountRecord.username)] } := by
  constructor
  · rw [List.map_append]
    refine hs.distinct.append (List.nodup_singleton _) ?_
    intro i hold hi
    obtain ⟨r, hr, rfl⟩ := List.mem_map.mp hold
    exact hapart r hr (List.mem_singleton.mp hi)
  · intro r hr
    rcases List.mem_append.mp hr with hr | hr
    · exact hs.standing r hr
    · rw [List.mem_singleton.mp hr]
      rfl
  · intro name
    rcases hs.mirrored name with hmirrored | ⟨r, hr, hputs⟩
    · exact .inl hmirrored
    · exact .inr ⟨r, List.mem_append_left _ hr, hputs⟩

/-! ### The rest of a request -/

/-- A request goes on as another one about the same account. -/
theorem inv_set {s : State} {i : Nat} {request request' : Request} (hs : Inv s)
    (hget : s.requests[i]? = some request) (hid : request'.id = request.id)
    (hstands : request'.Stands s.table)
    (hputs : ∀ name, request.Puts s.table name → request'.Puts s.table name) :
    Inv { s with requests := s.requests.set i request' } := by
  obtain ⟨front, behind, hsplit, hset, -⟩ := getElem?_split hget
  have hmem : ∀ r ∈ s.requests.set i request', r ∈ s.requests ∨ r = request' := by
    exact fun r hr => List.mem_or_eq_of_mem_set hr
  constructor
  · rw [map_set_of_key hget hid]
    exact hs.distinct
  · intro r hr
    rcases hmem r hr with hr | rfl
    · exact hs.standing r hr
    · exact hstands
  · intro name
    rcases hs.mirrored name with hmirrored | ⟨r, hr, hr'⟩
    · exact .inl hmirrored
    right
    rw [hset]
    rw [hsplit] at hr
    rcases List.mem_append.mp hr with hr | hr
    · exact ⟨r, by simp [hr], hr'⟩
    rcases List.mem_cons.mp hr with rfl | hr
    · exact ⟨request', by simp, hputs name hr'⟩
    · exact ⟨r, by simp [hr], hr'⟩

/-- A request is finished that has put the hash of its name in order. -/
theorem inv_finish {s : State} {i : Nat} {request : Request} {cache : Bytes → Option RedisHash}
    (hs : Inv s) (hget : s.requests[i]? = some request)
    (hput : ∀ name, request.Puts s.table name →
      cache name = (s.table.named name).map AccountRecord.hash)
    (hcache : ∀ name, ¬request.Puts s.table name → cache name = s.cache name) :
    Inv { s with cache, requests := s.requests.eraseIdx i } := by
  obtain ⟨front, behind, hsplit, -, herase⟩ := getElem?_split hget
  constructor
  · exact hs.distinct.sublist ((List.eraseIdx_sublist _ _).map _)
  · exact fun r hr => hs.standing r ((List.eraseIdx_sublist _ _).subset hr)
  · intro name
    by_cases hputs : request.Puts s.table name
    · exact .inl (hput name hputs)
    rcases hs.mirrored name with hmirrored | ⟨r, hr, hr'⟩
    · exact .inl ((hcache name hputs).trans hmirrored)
    right
    rw [hsplit] at hr
    rw [herase]
    rcases List.mem_append.mp hr with hr | hr
    · exact ⟨r, List.mem_append_left _ hr, hr'⟩
    rcases List.mem_cons.mp hr with rfl | hr
    · exact absurd hr' hputs
    · exact ⟨r, List.mem_append_right _ hr, hr'⟩

theorem inv_delete {s : State} {i : Nat} {id : Int32} {username : Option ColumnText} (hs : Inv s)
    (hget : s.requests[i]? = some (.delete id username)) :
    Inv { s with
      table := s.table.delete id, requests := s.requests.set i (.forget id username) } := by
  obtain ⟨front, behind, hsplit, hset, -⟩ := getElem?_split hget
  have hrequests : ∀ r ∈ front ++ behind, r ∈ s.requests := by
    intro r hr
    rw [hsplit]
    rcases List.mem_append.mp hr with hr | hr
    · exact List.mem_append_left _ hr
    · exact List.mem_append_right _ (List.mem_cons_of_mem _ hr)
  have hother : ∀ r ∈ front ++ behind, r.id ≠ id := by
    have hdistinct := hs.distinct
    rw [hsplit] at hdistinct
    exact fun r hr => key_ne_of_split hdistinct hr
  have hstands := hs.standing _ (List.mem_of_getElem? hget)
  have hrow : ∀ row ∈ s.table.rows, row.id = id → row.username ∈ username := by
    intro row hrow hid
    rw [show username = _ from hstands, Table.get_iff.mpr ⟨hrow, hid⟩]
    rfl
  constructor
  · rw [map_set_of_key hget (show (Request.forget id username).id = _ from rfl)]
    exact hs.distinct
  · intro r hr
    by_cases hnew : r = .forget id username
    · rw [hnew]
      rintro u hu row hrow' hname
      obtain ⟨hmem, hid⟩ := mem_delete_iff.mp hrow'
      have hfound : (s.table.get id).map AccountRecord.username = some u := by
        rw [← show username = _ from hstands]
        exact hu
      obtain ⟨row', hget', hu'⟩ := Option.map_eq_some_iff.mp hfound
      obtain ⟨hmem', hid'⟩ := Table.get_iff.mp hget'
      rw [Table.eq_of_username hmem hmem' (hname.trans hu'.symm)] at hid
      exact hid hid'
    · have hr' : r ∈ front ++ behind := by
        rw [hset] at hr
        simpa [hnew] using hr
      refine (hs.standing r (hrequests r hr')).of_other (hother r hr') ?_ ?_
      · exact fun row hid => mem_delete_iff.trans (and_iff_left hid)
      · exact fun row hrow' hid => absurd hid (mem_delete_iff.mp hrow').2
  · intro name
    by_cases hname : ∃ u ∈ username, name = u.text
    · refine .inr ⟨.forget id username, ?_, hname⟩
      rw [hset]
      simp
    · rcases hs.mirrored name with hmirrored | ⟨r, hr, hputs⟩
      · left
        refine hmirrored.trans (congrArg _ (Table.named_congr fun row hrow' => ?_).symm)
        refine mem_delete_iff.trans (and_iff_left_of_imp fun hmem hid => hname ?_)
        exact ⟨row.username, hrow row hmem hid, hrow'.symm⟩
      · right
        have hr' : r ∈ front ++ behind := by
          rw [hsplit] at hr
          rcases List.mem_append.mp hr with hr | hr
          · exact List.mem_append_left _ hr
          rcases List.mem_cons.mp hr with rfl | hr
          · exact hputs.elim
          · exact List.mem_append_right _ hr
        refine ⟨r, ?_, ?_⟩
        · rw [hset]
          simpa using Or.imp_right Or.inr (List.mem_append.mp hr')
        · cases r with
          | changed j =>
            obtain ⟨row, hmem, hid, hname⟩ := hputs
            exact ⟨row, mem_delete_iff.mpr ⟨hmem, hid ▸ hother _ hr'⟩, hid, hname⟩
          | created | store | delete | forget => exact hputs

theorem inv_proceed {s : State} (hs : Inv s) (hcopied : Copied s) {i : Nat} {request : Request}
    (hget : s.requests[i]? = some request) : Inv (s.proceed i true request) := by
  have hstands := hs.standing request (List.mem_of_getElem? hget)
  cases request with
  | created id username =>
    obtain ⟨row, hrow, hid, hname⟩ := hstands
    have hnamed : s.table.named username.text = some row :=
      Table.named_iff.mpr ⟨hrow, by rw [hname]⟩
    rw [State.proceed, if_pos rfl, hnamed]
    refine inv_set hs hget (show (Request.store row).id = _ from hid) hrow ?_
    intro name hputs
    exact hputs.trans (by rw [hname])
  | changed id =>
    rw [State.proceed, if_pos rfl]
    cases hrow : s.table.get id with
    | none =>
      apply inv_finish hs hget
      · rintro name ⟨row, hmem, hid, -⟩
        rw [Table.get_iff.mpr ⟨hmem, hid⟩] at hrow
        cases hrow
      · exact fun _ _ => rfl
    | some row =>
      obtain ⟨hmem, hid⟩ := Table.get_iff.mp hrow
      refine inv_set hs hget (show (Request.store row).id = _ from hid) hmem ?_
      rintro name ⟨row', hmem', hid', hname⟩
      rw [Table.eq_of_id hmem' hmem (hid'.trans hid.symm)] at hname
      exact hname.symm
  | store row =>
    apply inv_finish hs hget
    · rintro name rfl
      rw [Function.update_self, Table.named_iff.mpr ⟨hstands, rfl⟩, Option.map_some]
      cases hold : s.cache row.username.text with
      | none => rfl
      | some old =>
        obtain ⟨row', -, -, rfl⟩ := hcopied _ _ hold
        rw [hmset_hash]
    · exact fun name hname => Function.update_of_ne hname ..
  | delete id username => exact inv_delete hs hget
  | forget id username =>
    cases username with
    | none =>
      apply inv_finish hs hget
      · rintro name ⟨u, hu, -⟩
        cases hu
      · exact fun _ _ => rfl
    | some username =>
      apply inv_finish hs hget
      · rintro name ⟨u, hu, rfl⟩
        cases hu
        rw [Function.update_self]
        cases hnamed : s.table.named username.text with
        | none => rfl
        | some row =>
          obtain ⟨hmem, hname⟩ := Table.named_iff.mp hnamed
          exact absurd (ColumnText.ext hname) (hstands username rfl row hmem)
      · intro name hname
        exact Function.update_of_ne (fun he => hname ⟨username, rfl, he⟩) ..

theorem inv_step {s t : State} {a : Action} (hs : Inv s) (hcopied : Copied s) (hapart : Apart s a)
    (h : step s a = some t) : Inv t := by
  cases a with
  | create row =>
    simp only [step] at h
    split at h <;> cases h
    · next table hinsert =>
      exact @inv_create s { row with concurrent := 0 } table hs hapart hinsert _
    · exact hs
  | change id columns =>
    simp only [step] at h
    split at h <;> cases h
    · next table hupdate => exact inv_change hs hapart hupdate _
    · exact hs
  | delete id =>
    cases h
    exact inv_beginDelete hs hapart
  | proceed i answered =>
    obtain ⟨request, hget, rfl⟩ := Option.map_eq_some_iff.mp h
    obtain rfl : answered = true := hapart
    exact inv_proceed hs hcopied hget

/-! ## Runs -/

theorem versioned_init {table : Table} {cache : Bytes → Option RedisHash}
    (h : ∀ name, cache name = (table.named name).map AccountRecord.hash) :
    Versioned (.init table cache) where
  rows _ hrow := hrow
  stored _ h := by cases h
  copied name hash hhash := by
    have hname : (table.named name).map AccountRecord.hash = some hash := (h name).symm.trans hhash
    obtain ⟨row, hrow, rfl⟩ := Option.map_eq_some_iff.mp hname
    obtain ⟨hmem, hname⟩ := Table.named_mem hrow
    exact ⟨row, hmem, hname, rfl⟩

/-- In every run each hash is a copy of one row that the table has held under its name. If no
request begins on an account that another one is about, and the queries are answered, then the
hash of every name is the row with that name, and there is none if there is no such row, except
for the names that a request in progress is about to put in order. -/
theorem cache_mirrors_table {table : Table} {cache : Bytes → Option RedisHash}
    (hstart : ∀ name, cache name = (table.named name).map AccountRecord.hash) {as : List Action}
    {s : State} (hexec : exec step (.init table cache) as = some s) :
    Copied s ∧ (Guarded step Apart (.init table cache) as →
      ∀ name, Mirrored s name ∨ ∃ r ∈ s.requests, r.Puts s.table name) := by
  have hversioned := versioned_init hstart
  constructor
  · exact (exec_invariant (fun _ _ _ hs h => versioned_step hs h) hversioned hexec).copied
  · intro hguard
    have hinit : Inv (.init table cache) :=
      ⟨List.nodup_nil, fun _ h => (by cases h), fun name => .inl (hstart name)⟩
    have hstep : ∀ s a t, Versioned s ∧ Inv s → Apart s a → step s a = some t →
        Versioned t ∧ Inv t := by
      intro s a t ⟨hv, hs⟩ hapart h
      exact ⟨versioned_step hv h, inv_step hs hv.copied hapart h⟩
    exact (exec_invariant_of_guarded hstep ⟨hversioned, hinit⟩ hguard hexec).2.mirrored

def emptyTable : Table := ⟨[], List.nodup_nil, List.nodup_nil, List.nodup_nil⟩

/-- An account, by its number and its texts. -/
def plainAccount (id : Int32) (username password spcode : String) : AccountRecord where
  id := id
  username := (strncpy (ascii username) 8).column
  password := strncpy (ascii password) 32
  spcode := strncpy (ascii spcode) 20
  company := 1
  address := strncpy (ascii "127.0.0.1") 32
  concurrent := 0
  options := 0
  description := (strncpy (ascii "plain") 64).column
  createTime := (strncpy (ascii "2017-05-01 08:00:00") 19).column

def newPassword : Columns :=
  ⟨some (strncpy (ascii "secret2") 32), none, none, none, none, none, none⟩

/-- Two accounts are created at the same time; then one is changed while the other one is
deleted. -/
def twoAccounts : List Action :=
  [.create (plainAccount 1 "lambda" "secret1" "1069"),
    .create (plainAccount 2 "sigma1" "secret1" "1065"), .proceed 1 true, .proceed 0 true,
    .proceed 1 true, .proceed 0 true, .change 1 newPassword, .delete 2, .proceed 1 true,
    .proceed 0 true, .proceed 1 true, .proceed 0 true]

theorem twoAccounts_mirrored :
    ∃ s, exec step (.init emptyTable fun _ => none) twoAccounts = some s ∧
      (s.cache (ascii "lambda")).bind (· (ascii "password")) = some (ascii "secret2") ∧
      s.cache (ascii "sigma1") = none ∧ ∀ name, Mirrored s name := by
  have hguard : Guarded step Apart (.init emptyTable fun _ => none) twoAccounts := by decide +kernel
  have hend : (exec step (.init emptyTable fun _ => none) twoAccounts).map (fun s =>
      ((s.cache (ascii "lambda")).bind (· (ascii "password")), (s.cache (ascii "sigma1")).isSome,
        s.requests.length)) = some (some (ascii "secret2"), false, 0) := by
    decide +kernel
  obtain ⟨s, hexec, hs⟩ := Option.map_eq_some_iff.mp hend
  obtain ⟨hpassword, hnone, hrequests⟩ : _ ∧ _ ∧ _ := by simpa using hs
  refine ⟨s, hexec, hpassword, hnone, fun name => ?_⟩
  rcases (cache_mirrors_table (fun _ => rfl) hexec).2 hguard name with h | ⟨r, hr, -⟩
  · exact h
  · rw [hrequests] at hr
    cases hr

end LambGateway.Web.Accounts
