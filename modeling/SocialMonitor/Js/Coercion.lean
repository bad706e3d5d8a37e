import SocialMonitor.Js.Json
import SocialMonitor.Js.NumberText
import SocialMonitor.Js.Text

/-!
# Conversions of JSON values

An object that `JSON.parse` built has data properties only: an own `toString`
is not callable, and the object has no primitive value then.
-/

namespace Js

inductive TypeError where
  | nullProperty (name : String)
  | notPrimitive
deriving DecidableEq

namespace Number

def ofNat (n : ℕ) (h : |(n : ℤ)| ≤ 2 ^ 53 := by norm_num) : Number := .finite (.ofInt n h)

def zero : Number := .ofNat 0

def one : Number := .ofNat 1

def truthy : Number → Bool
  | .finite x => x.val ≠ 0
  | .infinite _ => true
  | .nan => false

end Number

/-- `Number(s)`; no numeral has a surrogate. -/
def unitsToNumber (us : CodeUnits) : Number :=
  if us.any fun u => isHighSurrogate u || isLowSurrogate u then .nan
  else stringToNumber (trimChars (us.map fun u => Char.ofNat u.toNat))

namespace Json

/-- `Boolean(v)`. -/
def truthy : Json → Bool
  | null => false
  | bool b => b
  | num x => x.truthy
  | str s => s ≠ []
  | arr _ => true
  | obj _ => true

/-- Only a number that is not finite is stored as a value of another truthiness. -/
theorem truthy_stored (v : Json) : v.stored.truthy = (v.truthy && !v.isInfinite) := by
  cases v with
  | num n => cases n <;> simp [stored, truthy, isInfinite]
  | _ => simp [stored, truthy, isInfinite]

mutual

/-- `String(v)`. -/
def toText : Json → Except TypeError CodeUnits
  | null => .ok (utf16 "null".toList)
  | bool b => .ok (utf16 (if b then "true".toList else "false".toList))
  | num x => .ok (utf16 (numberText x))
  | str s => .ok s
  | arr vs => return (utf16 ",".toList).intercalate (← itemTexts vs)
  | obj members =>
      if ((obj members).get? "toString").isSome then .error .notPrimitive
      else .ok (utf16 "[object Object]".toList)

/-- The texts that `join` joins: that of `null` is empty. -/
def itemTexts : List Json → Except TypeError (List CodeUnits)
  | [] => .ok []
  | null :: vs => return [] :: (← itemTexts vs)
  | v :: vs => return (← toText v) :: (← itemTexts vs)

end

theorem itemTexts_cons (v : Json) (vs : List Json) : ∃ text : Except TypeError CodeUnits,
    (text = .ok [] ∨ text = v.toText) ∧
      itemTexts (v :: vs) = (do return (← text) :: (← itemTexts vs)) := by
  cases v with
  | null => exact ⟨.ok [], Or.inl rfl, rfl⟩
  | bool b => exact ⟨_, Or.inr rfl, rfl⟩
  | num x => exact ⟨_, Or.inr rfl, rfl⟩
  | str s => exact ⟨_, Or.inr rfl, rfl⟩
  | arr items => exact ⟨_, Or.inr rfl, by rw [itemTexts]; simp⟩
  | obj members => exact ⟨_, Or.inr rfl, by rw [itemTexts]; simp⟩

mutual

/-- Only an object without a primitive value has no text. -/
theorem toText_error {e : TypeError} : ∀ {v : Json}, v.toText = .error e → e = .notPrimitive
  | .null, h => by simp [toText] at h
  | .bool b, h => by simp [toText] at h
  | .num x, h => by simp [toText] at h
  | .str s, h => by simp [toText] at h
  | .arr vs, h => by
      cases hvs : itemTexts vs with
      | error e' =>
          obtain rfl := itemTexts_error hvs
          simpa [toText, hvs, bind, Except.bind] using h.symm
      | ok texts => simp [toText, hvs, bind, Except.bind, pure, Except.pure] at h
  | .obj members, h => by
      unfold toText at h
      split_ifs at h
      exact (Except.error.inj h).symm

theorem itemTexts_error {e : TypeError} : ∀ {vs : List Json},
    itemTexts vs = .error e → e = .notPrimitive
  | [], h => by simp [itemTexts] at h
  | v :: vs, h => by
      obtain ⟨text, htext, heq⟩ := itemTexts_cons v vs
      rw [heq] at h
      cases text with
      | error e' =>
          have hv : v.toText = .error e' := (htext.resolve_left (by simp)).symm
          obtain rfl := toText_error hv
          exact (Except.error.inj h).symm
      | ok t =>
          cases hvs : itemTexts vs with
          | error e' =>
              obtain rfl := itemTexts_error hvs
              simpa [hvs, bind, Except.bind] using h.symm
          | ok texts => simp [hvs, bind, Except.bind, pure, Except.pure] at h

end

/-- `Number(v)`. -/
def toNumber : Json → Except TypeError Number
  | null => .ok .zero
  | bool b => .ok (if b then .one else .zero)
  | num x => .ok x
  | v => return unitsToNumber (← v.toText)

def isNull : Json → Bool
  | null => true
  | _ => false

/-- `v === s` for a text `s`. -/
def isText (v : Json) (s : String) : Bool :=
  match v with
  | str u => u = utf16 s.toList
  | _ => false

/-- The comparison of a set: two objects of different texts are never one. -/
def sameValue : Json → Json → Bool
  | null, null => true
  | bool a, bool b => a = b
  | num x, num y => x = y
  | str s, str t => s = t
  | _, _ => false

end Json

end Js
