import LambGateway.Framework.Decimal

/-!
# Checked requests

The models of the web check a request key by key: a `switch` finds the filter of a key, and the
filter gives a value or a default. What comes out is an array of columns with their values.
-/

namespace LambGateway.Web

open Framework

/-- A value that a filter has given. -/
inductive Value where
  | int (i : Int)
  | str (text : Bytes)
deriving DecidableEq

/-- The value of a condition. -/
def Value.truthy : Value → Bool
  | int i => i != 0
  | str text => text != [] && text != ascii "0"

/-- The functions of PHP that the filters call, on the values that a request may hold. -/
structure PhpLibrary (ν : Type) where
  /-- `filter_var` with `FILTER_SANITIZE_STRING` -/
  sanitizeString : ν → Option Bytes
  /-- `filter_var` with `FILTER_VALIDATE_IP` -/
  validateIp : ν → Option Bytes
  intval : ν → Int
  /-- A string that `createFromFormat` reads and `format` gives back. -/
  dateTime : ν → Option Bytes
  mbStrlen : Bytes → Int

def phpIntMax : Int := 9223372036854775807

namespace Filter

variable {ν : Type} (php : PhpLibrary ν)

/-- `filter_var`, where the result is a value that counts as true. -/
def truthyText (value : Option Bytes) : Option Bytes :=
  value.filter fun text => (Value.str text).truthy

/-- What `preg_replace` leaves of a text for `/[^a-zA-Z0-9]/`. -/
def alphanumeric (text : Bytes) : Bytes :=
  text.filter fun b => (97 ≤ b && b ≤ 122) || (65 ≤ b && b ≤ 90) || isDigit b

def alpha (value : ν) (defval : Option Value) (min max : Int) : Option Value :=
  match truthyText (php.sanitizeString value) with
  | some text =>
    let text := alphanumeric text
    if min ≤ php.mbStrlen text ∧ php.mbStrlen text ≤ max then some (.str text) else defval
  | none => defval

def number (value : ν) (defval : Option Value) (min max : Int) : Option Value :=
  if min ≤ php.intval value ∧ php.intval value ≤ max then some (.int (php.intval value))
  else defval

def string (value : ν) (defval : Option Value) (min max : Int) : Option Value :=
  match truthyText (php.sanitizeString value) with
  | some text =>
    if min ≤ php.mbStrlen text ∧ php.mbStrlen text ≤ max then some (.str text) else defval
  | none => defval

def dateTime (value : ν) (defval : Option Value) : Option Value :=
  match php.dateTime value with
  | some text => some (.str text)
  | none => defval

def ip (value : ν) (defval : Option Value) : Option Value :=
  match truthyText (php.validateIp value) with
  | some text => some (.str text)
  | none => defval

end Filter

/-! ## Columns -/

inductive Field where
  | beginTime
  | endTime
  | company
  | account
  | spcode
  | phone
  | status
  | username
  | password
  | address
  | concurrent
  | options
  | description
  | name
  | contacts
  | telephone
deriving DecidableEq

/-- The key in the request, and the name of the placeholder. -/
def Field.key : Field → Bytes
  | beginTime => ascii "begin"
  | endTime => ascii "end"
  | company => ascii "company"
  | account => ascii "account"
  | spcode => ascii "spcode"
  | phone => ascii "phone"
  | status => ascii "status"
  | username => ascii "username"
  | password => ascii "password"
  | address => ascii "address"
  | concurrent => ascii "concurrent"
  | options => ascii "options"
  | description => ascii "description"
  | name => ascii "name"
  | contacts => ascii "contacts"
  | telephone => ascii "telephone"

theorem Field.key_injective : Function.Injective Field.key := by
  intro f g h
  cases f <;> cases g <;> first | rfl | exact absurd h (by decide)

/-- An array with columns as keys, in their order. -/
structure Data where
  keys : List Field
  val : Field → Option Value

namespace Data

def set (data : Data) (f : Field) (v : Option Value) : Data :=
  ⟨if f ∈ data.keys then data.keys else data.keys ++ [f], Function.update data.val f v⟩

def unset (data : Data) (f : Field) : Data :=
  ⟨data.keys.filter fun g => g ≠ f, Function.update data.val f none⟩

/-- The columns whose value is not null. -/
def present (data : Data) (fields : List Field) : List Field :=
  fields.filter fun f => (data.val f).isSome

def nulls (keys : List Field) : Data := ⟨keys, fun _ => none⟩

end Data

/-- A key of an array of PHP. -/
inductive Key where
  | int (i : Int)
  | str (text : Bytes)

abbrev Request (ν : Type) := List (Key × ν)

/-- `switch` compares a key with the label of a case: a label is no number, so that the number 0
equals each of them. -/
def Key.equals : Key → Field → Bool
  | int i, _ => i == 0
  | str text, f => text == f.key

/-- The first case that a key equals gives the filter. -/
def checkEntry {ν : Type} (cases : List (Field × (ν → Option Value))) (data : Data)
    (entry : Key × ν) : Data :=
  match cases.find? fun c => entry.1.equals c.1 with
  | some (f, filter) => data.set f (filter entry.2)
  | none => data

/-- The loop of a check. -/
def check {ν : Type} (cases : List (Field × (ν → Option Value))) (data : Data)
    (request : Request ν) : Data :=
  request.foldl (checkEntry cases) data

/-- `array_intersect_key` with the columns of a model -/
def intersectKey {ν : Type} (request : Request ν) (column : List Field) : Request ν :=
  request.filter fun (key, _) =>
    match key with
    | .int _ => false
    | .str text => column.any fun f => f.key == text

theorem checkEntry_keys {ν : Type} {cases : List (Field × (ν → Option Value))} {data : Data}
    (h : ∀ c ∈ cases, c.1 ∈ data.keys) (entry : Key × ν) :
    (checkEntry cases data entry).keys = data.keys := by
  rw [checkEntry]
  cases hfind : cases.find? fun c => entry.1.equals c.1 with
  | none => rfl
  | some c => exact if_pos (h c (List.mem_of_find?_eq_some hfind))

/-- A check that only sets columns of its array does not change which they are. -/
theorem check_keys {ν : Type} {cases : List (Field × (ν → Option Value))} {data : Data}
    (h : ∀ c ∈ cases, c.1 ∈ data.keys) (request : Request ν) :
    (check cases data request).keys = data.keys := by
  induction request generalizing data with
  | nil => rfl
  | cons entry request ih =>
    have hkeys := checkEntry_keys h entry
    rw [← hkeys] at h
    exact (ih h).trans hkeys

end LambGateway.Web
