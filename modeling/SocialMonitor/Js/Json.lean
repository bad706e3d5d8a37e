import SocialMonitor.Js.Number
import SocialMonitor.Js.Utf16

/-!
# JSON values

The values `JSON.parse` builds, and what a JSON column of the database holds of
them.  The order of the members is that of the text and has no meaning; a lookup
takes the last member of a name, as a later duplicate overwrites an earlier one.
-/

namespace Js

inductive Json where
  | null
  | bool (b : Bool)
  | num (n : Number)
  | str (s : CodeUnits)
  | arr (items : List Json)
  | obj (members : List (CodeUnits × Json))

namespace Json

/-- The own property `name` of an object; every other value has none. -/
def get? (v : Json) (name : String) : Option Json :=
  match v with
  | obj members => (members.reverse.find? fun m => m.1 = utf16 name.toList).map Prod.snd
  | _ => none

/-! ## A column of the database -/

/-- A number that JSON text has no numeral for. -/
def isInfinite : Json → Bool
  | num (.infinite _) => true
  | num .nan => true
  | _ => false

mutual

/-- What the JSON text of a value says: `null` stands for a number that is not finite. -/
def stored : Json → Json
  | null => null
  | bool b => bool b
  | num (.finite x) => num (.finite x)
  | num _ => null
  | str s => str s
  | arr items => arr (storedItems items)
  | obj members => obj (storedMembers members)

def storedItems : List Json → List Json
  | [] => []
  | v :: vs => v.stored :: storedItems vs

def storedMember : CodeUnits × Json → CodeUnits × Json
  | (name, v) => (name, v.stored)

def storedMembers : List (CodeUnits × Json) → List (CodeUnits × Json)
  | [] => []
  | m :: ms => storedMember m :: storedMembers ms

end

/-- A text of a column has no unpaired surrogate and no NUL.  It is irreducible, as
unification is not to read texts. -/
@[irreducible] def storableText (s : CodeUnits) : Bool := (decodeUtf16? s).isSome && !s.contains 0

mutual

def storable : Json → Bool
  | str s => storableText s
  | arr items => storableItems items
  | obj members => storableMembers members
  | _ => true

def storableItems : List Json → Bool
  | [] => true
  | v :: vs => v.storable && storableItems vs

def storableMember : CodeUnits × Json → Bool
  | (name, v) => storableText name && v.storable

def storableMembers : List (CodeUnits × Json) → Bool
  | [] => true
  | m :: ms => storableMember m && storableMembers ms

end

/-- What the column holds of a value, unless the database refuses it. -/
def column? (v : Json) : Option Json := if v.storable then some v.stored else none

theorem column?_eq_some {v held : Json} :
    v.column? = some held ↔ v.storable = true ∧ v.stored = held := by
  unfold column?
  split_ifs with h <;> simp [h]

/-- An object whose members are texts. -/
def ofTexts (members : List (CodeUnits × CodeUnits)) : Json :=
  obj (members.map fun m => (m.1, str m.2))

/-- The column holds such an object as it is. -/
theorem column?_ofTexts {members : List (CodeUnits × CodeUnits)}
    (h : ∀ m ∈ members, storableText m.1 = true ∧ storableText m.2 = true) :
    (ofTexts members).column? = some (ofTexts members) := by
  refine column?_eq_some.mpr ?_
  simp only [ofTexts, storable, stored, obj.injEq]
  induction members with
  | nil => exact ⟨rfl, rfl⟩
  | cons m members ih =>
      obtain ⟨⟨hname, htext⟩, hrest⟩ := List.forall_mem_cons.mp h
      obtain ⟨hstorable, hstored⟩ := ih hrest
      rw [List.map_cons]
      simp only [storableMembers, storableMember, storable, hname, htext, hstorable, storedMembers,
        storedMember, stored, hstored, Bool.and_self, and_self]

theorem storedMembers_eq (members : List (CodeUnits × Json)) :
    storedMembers members = members.map fun m => (m.1, m.2.stored) := by
  induction members with
  | nil => rfl
  | cons m members ih =>
      obtain ⟨name, v⟩ := m
      rw [storedMembers, storedMember, ih, List.map_cons]

theorem get?_stored (v : Json) (name : String) : v.stored.get? name = (v.get? name).map stored := by
  cases v with
  | obj members =>
      simp only [stored, get?, storedMembers_eq, ← List.map_reverse, List.find?_map, Option.map_map]
      rfl
  | num n => cases n <;> rfl
  | _ => rfl

end Json

end Js
