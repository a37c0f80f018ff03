import LambGateway.Framework.NamedPlaceholders
import LambGateway.Web.Filter
import Mathlib.Data.List.Nodup
import Mathlib.Data.List.Perm.Subperm

/-!
# Statements of the web models

The models put a statement together from the checked request, with named placeholders in it, and
then bind values to names. Which placeholders the text has and which names are bound is decided in
two places.
-/

namespace LambGateway.Web

open Framework

/-- A prepared statement that is executed, with the clause that was put together for it. -/
structure Statement where
  sql : Bytes
  clause : Bytes
  bound : List (Bytes × Option Value)

variable {ν : Type}

/-! ## MessageModel -/

/-- A column that is not null gives a condition. -/
def andClause (data : Data) (f : Field) : Bytes :=
  if (data.val f).isSome then ascii " AND " ++ f.key ++ ascii " = :" ++ f.key else []

def Data.Dated (data : Data) : Prop :=
  (data.val .beginTime).isSome = true ∧ (data.val .endTime).isSome = true

instance (data : Data) : Decidable data.Dated := inferInstanceAs (Decidable (_ ∧ _))

/-- The assembly of a condition: it is empty if one of the dates is missing. -/
def whereFields (fields : List Field) (data : Data) : Bytes :=
  if data.Dated then
    ascii "create_time BETWEEN :begin AND :end" ++ fields.flatMap (andClause data)
  else []

/-- The loop that binds every column that is not null. -/
def bindPresent (data : Data) : List (Bytes × Option Value) :=
  (data.present data.keys).map fun f => (f.key, data.val f)

namespace MessageModel

variable (php : PhpLibrary ν) (request : Request ν)

def checkArgs : Data :=
  check [(.beginTime, fun v => Filter.dateTime php v none),
      (.endTime, fun v => Filter.dateTime php v none),
      (.company, fun v => Filter.number php v none 1 phpIntMax),
      (.account, fun v => Filter.number php v none 1 phpIntMax),
      (.spcode, fun v => Filter.string php v none 1 4096),
      (.phone, fun v => Filter.string php v none 1 4096),
      (.status, fun v => Filter.number php v none 1 7)]
    (.nulls [.beginTime, .endTime, .company, .account, .spcode, .phone, .status]) request

def whereAssembly : Data → Bytes := whereFields [.company, .account, .spcode, .phone, .status]

def checkDeliverArgs : Data :=
  check [(.beginTime, fun v => Filter.dateTime php v none),
      (.endTime, fun v => Filter.dateTime php v none),
      (.company, fun v => Filter.number php v none 1 phpIntMax),
      (.account, fun v => Filter.number php v none 1 phpIntMax),
      (.spcode, fun v => Filter.string php v none 1 4096),
      (.phone, fun v => Filter.string php v none 1 4096)]
    (.nulls [.beginTime, .endTime, .company, .account, .spcode, .phone]) request

def whereDeliverAssembly : Data → Bytes := whereFields [.company, .account, .spcode, .phone]

def checkReportArgs : Data :=
  check [(.beginTime, fun v => Filter.dateTime php v none),
      (.endTime, fun v => Filter.dateTime php v none),
      (.spcode, fun v => Filter.string php v none 1 4096),
      (.phone, fun v => Filter.string php v none 1 4096),
      (.status, fun v => Filter.number php v none 1 7)]
    (.nulls [.beginTime, .endTime, .spcode, .phone, .status]) request

def whereReportAssembly : Data → Bytes := whereFields [.spcode, .phone, .status]

def checkStatisticArgs : Data :=
  check [(.company, fun v => Filter.number php v none 1 phpIntMax),
      (.account, fun v => Filter.string php v none 1 4096),
      (.spcode, fun v => Filter.string php v none 1 4096),
      (.status, fun v => Filter.number php v none 1 7),
      (.beginTime, fun v => Filter.dateTime php v none),
      (.endTime, fun v => Filter.dateTime php v none)]
    (.nulls [.company, .account, .spcode, .status, .beginTime, .endTime]) request

/-- After the dates and the status, the first of three columns only. -/
def whereStatisicAssembly (data : Data) : Bytes :=
  if data.Dated then
    let text := ascii "create_time BETWEEN :begin AND :end" ++ andClause data .status
    if (data.val .company).isSome then text ++ andClause data .company
    else if (data.val .account).isSome then text ++ andClause data .account
    else if (data.val .spcode).isSome then text ++ andClause data .spcode
    else text
  else []

def queryMessage (limit : Value) : Statement :=
  let data := checkArgs php request
  let text := whereAssembly data
  { sql := ascii "SELECT * FROM message WHERE " ++ text ++
      ascii " ORDER BY create_time DESC LIMIT :limit"
    clause := text
    bound := bindPresent data ++ [(ascii "limit", some limit)] }

def queryDeliver (limit : Int) : Statement :=
  let data := checkDeliverArgs php request
  let text := whereDeliverAssembly data
  { sql := ascii "SELECT * FROM delivery WHERE " ++ text ++
      ascii " ORDER BY create_time DESC LIMIT :limit"
    clause := text
    bound := bindPresent data ++ [(ascii "limit", some (.int limit))] }

def queryReport : Statement :=
  let data := checkReportArgs php request
  let text := whereReportAssembly data
  { sql := ascii "SELECT spcode, count(id) as total FROM report WHERE " ++ text ++
      ascii " GROUP BY spcode"
    clause := text
    bound := bindPresent data }

/-- `$data[$key]` as a condition. -/
def isTrue (data : Data) (f : Field) : Bool := (data.val f).any Value.truthy

/-- There is no statement without one of the three columns. -/
def queryStatistic (grouping : Bool) : Option Statement :=
  let data := checkStatisticArgs php request
  let text := whereStatisicAssembly data
  if !isTrue data .company && !isTrue data .account && !isTrue data .spcode then none
  else
    some
      { sql :=
          if grouping then
            ascii "SELECT status, count(id) AS total FROM message WHERE " ++ text ++
              ascii " GROUP BY status ORDER BY status ASC"
          else ascii "SELECT count(id) AS total FROM message WHERE " ++ text
        clause := text
        bound := bindPresent data }

end MessageModel

/-! ## AccountModel and CompanyModel -/

/-- A key that is not null is appended to the text, behind a comma if it is not the first one. -/
def appendKey (data : Data) (acc : Bytes × Bool) (f : Field) : Bytes × Bool :=
  if (data.val f).isSome then
    if acc.1 ≠ [] ∧ acc.2 = true then
      (acc.1 ++ (ascii ", " ++ f.key ++ ascii " = :" ++ f.key), acc.2)
    else (acc.1 ++ (f.key ++ ascii " = :" ++ f.key), true)
  else acc

/-- `keyAssembly` of both models. -/
def keyAssembly (data : Data) : Bytes := (data.keys.foldl (appendKey data) ([], false)).1

/-- The end of both `change` methods: an array that is not empty is written, and every key of it is
bound. -/
def update (table : Bytes) (id : Int) (data : Data) : Option Statement :=
  let column := keyAssembly data
  if 0 < data.keys.length then
    some
      { sql := ascii "UPDATE " ++ table ++ ascii " SET " ++ column ++ ascii " WHERE id = :id"
        clause := column
        bound := (ascii "id", some (.int id)) :: data.keys.map fun f => (f.key, data.val f) }
  else none

def AccountModel.column : List Field :=
  [.username, .password, .spcode, .company, .address, .concurrent, .options, .description]

def AccountModel.checkArgs (php : PhpLibrary ν) (request : Request ν) : Data :=
  check [(.username, fun v => Filter.string php v none 6 6),
      (.password, fun v => Filter.alpha php v none 6 64),
      (.spcode, fun v => Filter.alpha php v none 1 20),
      (.company, fun v => Filter.number php v none 1 phpIntMax),
      (.address, fun v => Filter.ip php v none),
      (.concurrent, fun v => Filter.number php v (some (.int 30)) 1 phpIntMax),
      (.options, fun v => Filter.number php v (some (.int 0)) 0 phpIntMax),
      (.description, fun v =>
        Filter.string php v (some (.str (ascii "no description"))) 1 64)]
    (.nulls []) (intersectKey request AccountModel.column)

/-- What `change` comes to its statement with. `isExist` asks the database for a company. -/
def AccountModel.changed (php : PhpLibrary ν) (isExist : Value → Bool) (request : Request ν) :
    Option Data :=
  let data := checkArgs php request
  if (data.val .company).all isExist then
    some (if (data.val .username).isSome then data.unset .username else data)
  else none

def AccountModel.change (php : PhpLibrary ν) (isExist : Value → Bool) (id : Int)
    (request : Request ν) : Option Statement := do
  let data ← changed php isExist request
  update (ascii "account") id data

def CompanyModel.column : List Field := [.name, .contacts, .telephone, .description]

def CompanyModel.checkArgs (php : PhpLibrary ν) (request : Request ν) : Data :=
  check [(.name, fun v => Filter.string php v none 1 32),
      (.contacts, fun v => Filter.string php v none 1 32),
      (.telephone, fun v => Filter.alpha php v none 1 21),
      (.description, fun v =>
        Filter.string php v (some (.str (ascii "no description"))) 1 64)]
    (.nulls []) (intersectKey request CompanyModel.column)

def CompanyModel.change (php : PhpLibrary ν) (id : Int) (request : Request ν) :
    Option Statement :=
  update (ascii "company") id (checkArgs php request)

/-! ## Placeholders of the texts -/

/-- The names that are bound are those of the placeholders, and the clause is not empty. -/
structure Statement.Agrees (s : Statement) : Prop where
  names : ∀ name, name ∈ s.bound.map Prod.fst ↔ name ∈ placeholders s.sql
  clause : s.clause ≠ []

theorem placeholders_framed {front back : Bytes}
    (hfront : OutsideAtLast front) (hback : OutsideAtHead back) (text : Bytes) :
    placeholders (front ++ text ++ back) =
      placeholders front ++ placeholders text ++ placeholders back := by
  rw [placeholders_append hback, placeholders_append_of_last hfront]

theorem key_isWord (f : Field) : f.key ≠ [] ∧ ∀ b ∈ f.key, isWord b = true := by
  rw [← List.all_eq_true]
  cases f <;> decide

/-- A column that is compared with its placeholder, or set to it. -/
theorem placeholders_key {front : Bytes} (hfront : colon ∉ front) (f : Field) :
    placeholders (front ++ f.key ++ ascii " = :" ++ f.key) = [f.key] := by
  obtain ⟨hne, hword⟩ := key_isWord f
  have htext : colon ∉ front ++ f.key ++ ascii " = " := by
    rw [List.mem_append, List.mem_append, not_or, not_or]
    exact ⟨⟨hfront, colon_not_mem_name hword⟩, by decide⟩
  have hsplit : front ++ f.key ++ ascii " = :" ++ f.key =
      (front ++ f.key ++ ascii " = ") ++ colon :: f.key := by
    have hsign : ascii " = :" = ascii " = " ++ [colon] := by decide
    simp only [hsign, List.append_assoc, List.singleton_append]
  rw [hsplit, placeholders_name htext hne hword]

theorem placeholders_andClause (data : Data) (f : Field) :
    placeholders (andClause data f) = (data.present [f]).map Field.key := by
  rw [andClause, Data.present, List.filter_singleton]
  cases (data.val f).isSome with
  | false => rfl
  | true => exact placeholders_key (by decide) f

theorem andClause_head (data : Data) (f : Field) :
    OutsideAtHead (andClause data f) := by
  intro b hb
  rw [andClause] at hb
  split at hb
  · obtain rfl := Option.some.inj hb
    decide
  · exact nomatch hb

theorem present_cons (data : Data) (f : Field) (fields : List Field) :
    data.present (f :: fields) = data.present [f] ++ data.present fields :=
  List.filter_append [f] fields

theorem placeholders_clauses (data : Data) (fields : List Field) (text : Bytes) :
    placeholders (text ++ fields.flatMap (andClause data)) =
      placeholders text ++ (data.present fields).map Field.key := by
  induction fields generalizing text with
  | nil => rw [List.flatMap_nil, List.append_nil]; exact (List.append_nil _).symm
  | cons f fields ih =>
    rw [List.flatMap_cons, ← List.append_assoc, ih, placeholders_append (andClause_head data f),
      placeholders_andClause, present_cons data f fields, List.map_append, List.append_assoc]

theorem placeholders_dates :
    placeholders (ascii "create_time BETWEEN :begin AND :end") =
      [Field.beginTime, .endTime].map Field.key := by
  decide

theorem mem_present {data : Data} {fields : List Field} {f : Field} :
    f ∈ data.present fields ↔ f ∈ fields ∧ (data.val f).isSome = true :=
  List.mem_filter

theorem present_dates {data : Data} (h : data.Dated) :
    data.present [.beginTime, .endTime] = [.beginTime, .endTime] := by
  simp [Data.present, h.1, h.2]

theorem bindPresent_names (data : Data) :
    (bindPresent data).map Prod.fst = (data.present data.keys).map Field.key := by
  rw [bindPresent, List.map_map]
  rfl

/-- The statements of `queryMessage`, `queryDeliver` and `queryReport`. -/
theorem whereFields_agrees_iff {data : Data} {fields : List Field} {front back : Bytes}
    (extra : List (Bytes × Option Value))
    (hkeys : ∀ f, f ∈ data.keys ↔ f ∈ [.beginTime, .endTime] ++ fields)
    (hfront : OutsideAtLast front) (hback : OutsideAtHead back) (hnone : placeholders front = [])
    (hextra : placeholders back = extra.map Prod.fst) :
    (⟨front ++ whereFields fields data ++ back, whereFields fields data,
      bindPresent data ++ extra⟩ : Statement).Agrees ↔ data.Dated := by
  constructor
  · intro h
    by_contra hdated
    exact h.clause (if_neg hdated)
  · intro hdated
    have htext : whereFields fields data =
        ascii "create_time BETWEEN :begin AND :end" ++ fields.flatMap (andClause data) :=
      if_pos hdated
    have hpresent (f : Field) :
        f ∈ data.present data.keys ↔ f ∈ [.beginTime, .endTime] ++ data.present fields := by
      have hsplit := List.filter_append (p := fun f => (data.val f).isSome)
        [Field.beginTime, .endTime] fields
      change data.present ([.beginTime, .endTime] ++ fields) = _ ++ data.present fields at hsplit
      rw [← Data.present, present_dates hdated] at hsplit
      rw [← hsplit, mem_present, mem_present, hkeys]
    refine ⟨fun name => ?_, ?_⟩
    · rw [placeholders_framed hfront hback, hnone, hextra, htext, placeholders_clauses,
        placeholders_dates, ← List.map_append, List.nil_append, List.map_append, bindPresent_names,
        List.mem_append, List.mem_append]
      simp only [List.mem_map, hpresent]
    · change whereFields fields data ≠ []
      rw [htext]
      exact List.append_ne_nil_of_left_ne_nil (by decide) _

/-! ### Statistics -/

/-- The three columns of which the condition takes the first one. -/
def objects : List Field := [.company, .account, .spcode]

theorem whereStatisicAssembly_dated {data : Data} (h : data.Dated) :
    MessageModel.whereStatisicAssembly data = ascii "create_time BETWEEN :begin AND :end" ++
      (.status :: (data.present objects).take 1).flatMap (andClause data) := by
  rw [MessageModel.whereStatisicAssembly, if_pos h, objects, Data.present]
  cases hcompany : data.val .company <;> cases haccount : data.val .account <;>
    cases hspcode : data.val .spcode <;>
    simp [hcompany, haccount, hspcode, List.append_assoc]

theorem present_take (data : Data) :
    data.present ((data.present objects).take 1) = (data.present objects).take 1 := by
  apply List.filter_eq_self.mpr
  intro f hf
  exact (mem_present.mp (List.mem_of_mem_take hf)).2

theorem map_key_iff {fields others : List Field} :
    (∀ name, name ∈ fields.map Field.key ↔ name ∈ others.map Field.key) ↔
      ∀ f, f ∈ fields ↔ f ∈ others := by
  constructor
  · intro h f
    have hf := h f.key
    rwa [List.mem_map_of_injective Field.key_injective,
      List.mem_map_of_injective Field.key_injective] at hf
  · intro h name
    simp only [List.mem_map, h]

/-- At most one of the three columns, where the text has the first of them. -/
theorem first_object_iff (data : Data) (dates status : List Field)
    (hdates : ∀ f ∈ dates ++ status, f ∉ objects) :
    (∀ f, f ∈ dates ++ status ++ data.present objects ↔
      f ∈ dates ++ status ++ (data.present objects).take 1) ↔
      (data.present objects).length ≤ 1 := by
  constructor
  · intro h
    have hnodup : (data.present objects).Nodup := List.Nodup.filter _ (by decide)
    have hsub : data.present objects ⊆ (data.present objects).take 1 := by
      intro f hf
      rcases List.mem_append.mp ((h f).mp (List.mem_append_right _ hf)) with hother | htake
      · exact absurd (mem_present.mp hf).1 (hdates f hother)
      · exact htake
    exact (hnodup.subperm hsub).length_le.trans (List.length_take_le _ _)
  · intro hlen f
    rw [List.take_of_length_le hlen]

/-- The statement of `queryStatistic`. -/
theorem statistic_agrees_iff {data : Data} {front back : Bytes}
    (hkeys : data.keys = [.company, .account, .spcode, .status, .beginTime, .endTime])
    (hfront : OutsideAtLast front) (hback : OutsideAtHead back) (hnone : placeholders front = [])
    (hend : placeholders back = []) :
    (⟨front ++ MessageModel.whereStatisicAssembly data ++ back,
      MessageModel.whereStatisicAssembly data, bindPresent data⟩ : Statement).Agrees ↔
      data.Dated ∧ (data.present objects).length ≤ 1 := by
  by_cases hdated : data.Dated
  · have htext := whereStatisicAssembly_dated hdated
    have hsql : placeholders (front ++ MessageModel.whereStatisicAssembly data ++ back) =
        ([Field.beginTime, .endTime] ++ data.present [.status] ++
          (data.present objects).take 1).map Field.key := by
      rw [placeholders_framed hfront hback, hnone, hend, htext, placeholders_clauses,
        placeholders_dates, present_cons, present_take, ← List.map_append, List.nil_append,
        List.append_nil, List.append_assoc]
    have hbound (f : Field) : f ∈ data.present data.keys ↔
        f ∈ [Field.beginTime, .endTime] ++ data.present [.status] ++ data.present objects := by
      rw [mem_present, hkeys, List.mem_append, List.mem_append, mem_present, mem_present, objects]
      cases f <;> simp [hdated.1, hdated.2]
    have hothers : ∀ f ∈ [Field.beginTime, .endTime] ++ data.present [.status], f ∉ objects := by
      intro f hf
      rcases List.mem_append.mp hf with hdate | hstatus
      · clear hf
        revert f
        decide
      · obtain rfl := List.mem_singleton.mp (mem_present.mp hstatus).1
        decide
    rw [and_iff_right hdated, ← first_object_iff data _ _ hothers]
    simp only [← hbound]
    rw [← map_key_iff]
    constructor
    · intro h name
      rw [← bindPresent_names, ← hsql]
      exact h.names name
    · intro h
      refine ⟨fun name => ?_, ?_⟩
      · rw [bindPresent_names, hsql]
        exact h name
      · change MessageModel.whereStatisicAssembly data ≠ []
        rw [htext]
        exact List.append_ne_nil_of_left_ne_nil (by decide) _
  · refine ⟨fun h => absurd ?_ h.clause, fun h => absurd h.1 hdated⟩
    exact if_neg hdated

/-! ### Changes -/

/-- A text that is not empty is followed by a comma. -/
theorem appendKey_spec (data : Data) {acc : Bytes × Bool} (h : acc.1 = [] ∨ acc.2 = true)
    (f : Field) :
    placeholders (appendKey data acc f).1 =
      placeholders acc.1 ++ (data.present [f]).map Field.key ∧
      ((appendKey data acc f).1 = [] ∨ (appendKey data acc f).2 = true) := by
  obtain ⟨text, append⟩ := acc
  rw [appendKey, Data.present, List.filter_singleton]
  cases (data.val f).isSome with
  | false => exact ⟨(List.append_nil _).symm, h⟩
  | true =>
    rw [if_pos rfl]
    by_cases htext : text = []
    · subst htext
      rw [if_neg fun hboth => hboth.1 rfl]
      exact ⟨@placeholders_key [] List.not_mem_nil f, Or.inr rfl⟩
    · have happend : append = true := h.resolve_left htext
      rw [if_pos ⟨htext, happend⟩]
      have hcomma : OutsideAtHead (ascii ", " ++ f.key ++ ascii " = :" ++ f.key) := by
        intro b hb
        obtain rfl := Option.some.inj hb
        decide
      refine ⟨?_, Or.inr happend⟩
      rw [placeholders_append hcomma, placeholders_key (by decide)]
      rfl

theorem placeholders_keyAssembly (data : Data) :
    placeholders (keyAssembly data) = (data.present data.keys).map Field.key := by
  have hfold (fields : List Field) : ∀ acc : Bytes × Bool, acc.1 = [] ∨ acc.2 = true →
      placeholders (fields.foldl (appendKey data) acc).1 =
        placeholders acc.1 ++ (data.present fields).map Field.key := by
    induction fields with
    | nil => exact fun acc _ => (List.append_nil _).symm
    | cons f fields ih =>
      intro acc hacc
      obtain ⟨htext, hnext⟩ := appendKey_spec data hacc f
      rw [List.foldl_cons, ih _ hnext, htext, present_cons data f fields, List.map_append,
        List.append_assoc]
  exact hfold data.keys ([], false) (Or.inl rfl)

theorem key_ne_id (f : Field) : f.key ≠ ascii "id" := by
  cases f <;> decide

/-- The statements of both `change` methods. -/
theorem update_agrees_iff {table : Bytes} {id : Int} {data : Data} {s : Statement}
    (hs : update table id data = some s)
    (hfront : OutsideAtLast (ascii "UPDATE " ++ table ++ ascii " SET "))
    (hnone : placeholders (ascii "UPDATE " ++ table ++ ascii " SET ") = []) :
    s.Agrees ↔ ∀ f ∈ data.keys, (data.val f).isSome = true := by
  rw [update] at hs
  split at hs
  case isFalse => exact nomatch hs
  case isTrue hlen =>
    obtain rfl := Option.some.inj hs
    have hsql : placeholders (ascii "UPDATE " ++ table ++ ascii " SET " ++ keyAssembly data ++
        ascii " WHERE id = :id") = (data.present data.keys).map Field.key ++ [ascii "id"] := by
      rw [placeholders_framed hfront (by decide), hnone, placeholders_keyAssembly]
      rfl
    have hbound : ((ascii "id", some (.int id)) ::
        data.keys.map fun f => (f.key, data.val f) : List (Bytes × Option Value)).map Prod.fst =
          ascii "id" :: data.keys.map Field.key := by
      rw [List.map_cons, List.map_map]
      rfl
    constructor
    · intro h f hf
      have hname := (h.names f.key).mp (by
        rw [hbound]
        exact List.mem_cons_of_mem _ (List.mem_map_of_mem hf))
      rw [hsql] at hname
      rcases List.mem_append.mp hname with hkey | hid
      · rw [List.mem_map_of_injective Field.key_injective] at hkey
        exact (mem_present.mp hkey).2
      · exact absurd (List.mem_singleton.mp hid) (key_ne_id f)
    · intro h
      have hall : data.present data.keys = data.keys := List.filter_eq_self.mpr h
      refine ⟨fun name => ?_, ?_⟩
      · rw [hbound, hsql, hall, List.mem_append, List.mem_singleton, List.mem_cons, or_comm]
      · intro hempty
        change keyAssembly data = [] at hempty
        have hnames := placeholders_keyAssembly data
        rw [hempty, hall] at hnames
        have hkeys := List.map_eq_nil_iff.mp hnames.symm
        rw [hkeys] at hlen
        exact absurd hlen (lt_irrefl 0)

theorem update_all_agree_iff {table : Bytes} (id : Int) (data : Data)
    (hfront : OutsideAtLast (ascii "UPDATE " ++ table ++ ascii " SET "))
    (hnone : placeholders (ascii "UPDATE " ++ table ++ ascii " SET ") = []) :
    (∀ s, update table id data = some s → s.Agrees) ↔
      ∀ f ∈ data.keys, (data.val f).isSome = true := by
  constructor
  · intro h f hf
    have hlen : 0 < data.keys.length := List.length_pos_of_mem hf
    have hs : ∃ s, update table id data = some s := ⟨_, if_pos hlen⟩
    obtain ⟨s, hs⟩ := hs
    exact (update_agrees_iff hs hfront hnone).mp (h s hs) f hf
  · exact fun h s hs => (update_agrees_iff hs hfront hnone).mpr h

/-! ## All models -/

/-- The calls of the six functions, with what they get. -/
inductive Call (ν : Type) where
  | queryMessage (request : Request ν) (limit : Value)
  | queryDeliver (request : Request ν) (limit : Int)
  | queryReport (request : Request ν)
  | queryStatistic (request : Request ν) (grouping : Bool)
  | accountChange (id : Int) (request : Request ν)
  | companyChange (id : Int) (request : Request ν)

/-- The statement that a call executes, if it comes to it. -/
def Call.statement (php : PhpLibrary ν) (isExist : Value → Bool) : Call ν → Option Statement
  | queryMessage request limit => some (MessageModel.queryMessage php request limit)
  | queryDeliver request limit => some (MessageModel.queryDeliver php request limit)
  | queryReport request => some (MessageModel.queryReport php request)
  | queryStatistic request grouping => MessageModel.queryStatistic php request grouping
  | accountChange id request => AccountModel.change php isExist id request
  | companyChange id request => CompanyModel.change php id request

/-- The condition, on the checked data: both dates; for statistics also no more than one of the
three columns, if there is one; for changes no null. -/
def Call.Complete (php : PhpLibrary ν) (isExist : Value → Bool) : Call ν → Prop
  | queryMessage request _ => (MessageModel.checkArgs php request).Dated
  | queryDeliver request _ => (MessageModel.checkDeliverArgs php request).Dated
  | queryReport request => (MessageModel.checkReportArgs php request).Dated
  | queryStatistic request _ =>
    let data := MessageModel.checkStatisticArgs php request
    (∃ f ∈ objects, MessageModel.isTrue data f = true) →
      data.Dated ∧ (data.present objects).length ≤ 1
  | accountChange _ request =>
    ∀ data, AccountModel.changed php isExist request = some data →
      ∀ f ∈ data.keys, (data.val f).isSome = true
  | companyChange _ request =>
    ∀ f ∈ (CompanyModel.checkArgs php request).keys,
      ((CompanyModel.checkArgs php request).val f).isSome = true

section Calls

variable (php : PhpLibrary ν) (isExist : Value → Bool)

theorem queryMessage_agrees_iff (request : Request ν) (limit : Value) :
    (MessageModel.queryMessage php request limit).Agrees ↔
      (MessageModel.checkArgs php request).Dated := by
  have hkeys : (MessageModel.checkArgs php request).keys = _ :=
    check_keys (by simp [Data.nulls]) request
  exact whereFields_agrees_iff [(ascii "limit", some limit)] (fun f => by rw [hkeys]; rfl)
    (by decide) (by decide) (by decide) rfl

theorem queryDeliver_agrees_iff (request : Request ν) (limit : Int) :
    (MessageModel.queryDeliver php request limit).Agrees ↔
      (MessageModel.checkDeliverArgs php request).Dated := by
  have hkeys : (MessageModel.checkDeliverArgs php request).keys = _ :=
    check_keys (by simp [Data.nulls]) request
  exact whereFields_agrees_iff [(ascii "limit", some (.int limit))]
    (fun f => by rw [hkeys]; rfl) (by decide) (by decide) (by decide) rfl

theorem queryReport_agrees_iff (request : Request ν) :
    (MessageModel.queryReport php request).Agrees ↔
      (MessageModel.checkReportArgs php request).Dated := by
  have hkeys : (MessageModel.checkReportArgs php request).keys = _ :=
    check_keys (by simp [Data.nulls]) request
  have hquery : MessageModel.queryReport php request =
      ⟨ascii "SELECT spcode, count(id) as total FROM report WHERE " ++
        whereFields [.spcode, .phone, .status] (MessageModel.checkReportArgs php request) ++
          ascii " GROUP BY spcode",
        whereFields [.spcode, .phone, .status] (MessageModel.checkReportArgs php request),
        bindPresent (MessageModel.checkReportArgs php request) ++ []⟩ := by
    rw [List.append_nil]
    rfl
  rw [hquery]
  exact whereFields_agrees_iff [] (fun f => by rw [hkeys]; rfl) (by decide) (by decide) (by decide)
    rfl

theorem forall_some_agrees (st : Statement) :
    (∀ s, some st = some s → s.Agrees) ↔ st.Agrees :=
  ⟨fun h => h st rfl, fun h _ hs => Option.some.inj hs ▸ h⟩

theorem noObject_iff (data : Data) :
    (!MessageModel.isTrue data .company && !MessageModel.isTrue data .account &&
      !MessageModel.isTrue data .spcode) = true ↔
      ¬ ∃ f ∈ objects, MessageModel.isTrue data f = true := by
  simp [objects, and_assoc]

theorem queryStatistic_agrees_iff (request : Request ν) (grouping : Bool) :
    (∀ s, MessageModel.queryStatistic php request grouping = some s → s.Agrees) ↔
      ((∃ f ∈ objects, MessageModel.isTrue (MessageModel.checkStatisticArgs php request) f = true) →
        (MessageModel.checkStatisticArgs php request).Dated ∧
          ((MessageModel.checkStatisticArgs php request).present objects).length ≤ 1) := by
  have hkeys : (MessageModel.checkStatisticArgs php request).keys = _ :=
    check_keys (by simp [Data.nulls]) request
  rw [MessageModel.queryStatistic]
  by_cases hobject : ∃ f ∈ objects,
      MessageModel.isTrue (MessageModel.checkStatisticArgs php request) f = true
  · rw [if_neg (mt (noObject_iff _).mp (not_not.mpr hobject)), forall_some_agrees,
      imp_iff_right hobject]
    cases grouping with
    | true => exact statistic_agrees_iff hkeys (by decide) (by decide) (by decide) (by decide)
    | false =>
      have hend := List.append_nil (ascii "SELECT count(id) AS total FROM message WHERE " ++
        MessageModel.whereStatisicAssembly (MessageModel.checkStatisticArgs php request))
      rw [if_neg Bool.false_ne_true, ← hend]
      exact statistic_agrees_iff hkeys (by decide) (by decide) (by decide) rfl
  · rw [if_pos ((noObject_iff _).mpr hobject)]
    exact ⟨fun _ h => absurd h hobject, fun _ s hs => nomatch hs⟩

theorem accountChange_agrees_iff (id : Int) (request : Request ν) :
    (∀ s, AccountModel.change php isExist id request = some s → s.Agrees) ↔
      ∀ data, AccountModel.changed php isExist request = some data →
        ∀ f ∈ data.keys, (data.val f).isSome = true := by
  rw [AccountModel.change]
  cases AccountModel.changed php isExist request with
  | none => exact ⟨fun _ data hdata => (nomatch hdata), fun _ s hs => nomatch hs⟩
  | some data =>
    have h : (∀ s, update (ascii "account") id data = some s → s.Agrees) ↔ _ :=
      update_all_agree_iff id data (by decide) (by decide)
    refine h.trans ⟨fun hall data' hdata => ?_, fun hall => hall data rfl⟩
    exact Option.some.inj hdata ▸ hall

/-- For every call: the names that are bound are the placeholders of the text, and its clause is not
empty, if and only if the checked data meet the condition. -/
theorem bound_agrees_iff (call : Call ν) :
    (∀ s, call.statement php isExist = some s → s.Agrees) ↔ call.Complete php isExist := by
  cases call with
  | queryMessage request limit =>
    exact (forall_some_agrees _).trans (queryMessage_agrees_iff php request limit)
  | queryDeliver request limit =>
    exact (forall_some_agrees _).trans (queryDeliver_agrees_iff php request limit)
  | queryReport request => exact (forall_some_agrees _).trans (queryReport_agrees_iff php request)
  | queryStatistic request grouping => exact queryStatistic_agrees_iff php request grouping
  | accountChange id request => exact accountChange_agrees_iff php isExist id request
  | companyChange id request =>
    exact update_all_agree_iff id (CompanyModel.checkArgs php request) (by decide) (by decide)

end Calls

/-- The functions of PHP for texts without tags, quotes and addresses, and for dates that exist. -/
def plainTexts : PhpLibrary Value where
  sanitizeString
    | .int i => some (decimalInt i)
    | .str text => some text
  validateIp _ := none
  intval
    | .int i => i
    | .str text => scanInt text
  dateTime
    | .int _ => none
    | .str text =>
      if text.map (fun b => if isDigit b then 48 else b) = ascii "0000-00-00 00:00:00" then
        some text
      else none
  mbStrlen text := text.length

/-- A request of statistics for a company and for an account. -/
def companyAndAccount : Request Value :=
  [(.str (ascii "begin"), .str (ascii "2017-01-01 00:00:00")),
    (.str (ascii "end"), .str (ascii "2017-02-01 00:00:00")),
    (.str (ascii "company"), .str (ascii "1")), (.str (ascii "account"), .str (ascii "100001"))]

/-- A query without dates has an empty clause. Statistics for a company and an account bind an
account, and a change to a password that is too short binds a password, without placeholders. -/
theorem bound_without_placeholder :
    ¬ (MessageModel.queryMessage plainTexts [] (.int 30)).Agrees ∧
      (∃ s, MessageModel.queryStatistic plainTexts companyAndAccount false = some s ∧
        ¬ s.Agrees) ∧
      ∃ s, AccountModel.change plainTexts (fun _ => true) 1
        [(.str (ascii "password"), .str (ascii "short"))] = some s ∧ ¬ s.Agrees := by
  refine ⟨fun h => h.clause (by decide), ⟨_, rfl, fun h => ?_⟩, ⟨_, rfl, fun h => ?_⟩⟩
  · exact absurd ((h.names (ascii "account")).mp (by decide)) (by decide)
  · exact absurd ((h.names (ascii "password")).mp (by decide)) (by decide)

end LambGateway.Web
