import SocialMonitor.Channels.Providers
import SocialMonitor.Js.WellFormed

/-!
# The text that is forwarded

`buildForwardText` cuts a long text at a code unit, between the two halves of a
character if one stands there.
-/

namespace SocialMonitor.Channels

open Js Notifications

/-- One element per line, the author and the link only if there are any. -/
def forwardLines (payload : NotificationPayload) : List String :=
  let author := if payload.author = "" then [] else [s!"【{payload.author}】"]
  let url :=
    match payload.url with
    | some url => if url = "" then [] else [s!"原文：{url}"]
    | none => []
  [s!"【{payload.sourceLabel}】", s!"【{payload.targetName}】"] ++ author ++ [payload.content] ++ url

/-- The lines joined, before any cut. -/
def forwardText (payload : NotificationPayload) : CodeUnits :=
  [10].intercalate ((forwardLines payload).map units)

/-- The text is kept where it fits, and is a prefix with three dots where it
does not. -/
structure Faithful (payload : NotificationPayload) (maxLength : ℕ) (result : CodeUnits) : Prop where
  whole : (forwardText payload).length ≤ maxLength → result = forwardText payload
  cut : maxLength < (forwardText payload).length →
    ∃ kept, kept <+: forwardText payload ∧ result = kept ++ units "..."
  bounded : result.length ≤ maxLength

/-- The text does not fit, and the last unit kept is a high surrogate. -/
def CutsPair (payload : NotificationPayload) (maxLength : ℕ) : Prop :=
  maxLength < (forwardText payload).length ∧ SplitsPair (forwardText payload) (maxLength - 3)

theorem utf16_append (s t : List Char) : utf16 (s ++ t) = utf16 s ++ utf16 t :=
  List.flatMap_append

theorem utf16_intercalate (separator : List Char) (parts : List (List Char)) :
    utf16 (separator.intercalate parts) = (utf16 separator).intercalate (parts.map utf16) := by
  induction parts with
  | nil => rfl
  | cons part parts ih =>
      cases parts with
      | nil => simp [List.intercalate]
      | cons next parts =>
          rw [List.intercalate_cons_cons, utf16_append, utf16_append, ih]
          simp only [List.map_cons]
          rw [List.intercalate_cons_cons]

theorem units_lines (lines : List String) :
    units ("\n".intercalate lines) = [10].intercalate (lines.map units) := by
  have hnewline : utf16 "\n".toList = [10] := by decide
  rw [units, String.toList_intercalate, utf16_intercalate, hnewline, List.map_map]
  rfl

theorem buildForwardText_eq (payload : NotificationPayload) (maxLength : ℕ) :
    buildForwardText payload maxLength =
      if (forwardText payload).length ≤ maxLength then forwardText payload
      else (forwardText payload).take (maxLength - 3) ++ units "..." := by
  have hurl : ((payload.url.bind nonempty?).map fun url => s!"原文：{url}").toList =
      match payload.url with
      | some url => if url = "" then [] else [s!"原文：{url}"]
      | none => [] := by
    cases payload.url with
    | none => rfl
    | some url => by_cases hempty : url = "" <;> simp [nonempty?, hempty]
  rw [buildForwardText, forwardText, forwardLines, units_lines, hurl]

theorem wellFormed_units (s : String) : WellFormed (units s) := wellFormed_utf16 s.toList

theorem wellFormed_intercalate {separator : CodeUnits} (hseparator : WellFormed separator)
    {parts : List CodeUnits} (hparts : ∀ part ∈ parts, WellFormed part) :
    WellFormed (separator.intercalate parts) := by
  induction parts with
  | nil => exact .nil
  | cons part parts ih =>
      obtain ⟨hpart, hrest⟩ := List.forall_mem_cons.mp hparts
      cases parts with
      | nil => simpa [List.intercalate] using hpart
      | cons next parts =>
          rw [List.intercalate_cons_cons]
          exact (hpart.append hseparator).append (ih hrest)

theorem wellFormed_forwardText (payload : NotificationPayload) :
    WellFormed (forwardText payload) := by
  apply wellFormed_intercalate (.singleton (by decide) (by decide))
  intro part hpart
  obtain ⟨line, -, rfl⟩ := List.mem_map.mp hpart
  exact wellFormed_units line

theorem faithful_buildForwardText (payload : NotificationPayload) {maxLength : ℕ}
    (hmax : 3 ≤ maxLength) : Faithful payload maxLength (buildForwardText payload maxLength) := by
  have hdots : (units "...").length = 3 := by decide
  rw [buildForwardText_eq]
  by_cases hfits : (forwardText payload).length ≤ maxLength
  · rw [if_pos hfits]
    exact ⟨fun _ => rfl, fun hlong => absurd hfits (by omega), hfits⟩
  · rw [if_neg hfits]
    refine ⟨fun hshort => absurd hshort hfits, fun _ => ⟨_, List.take_prefix _ _, rfl⟩, ?_⟩
    rw [List.length_append, List.length_take, hdots]
    omega

/-- Bounded and faithful for every payload and every length, and well-formed
unless the cut splits a pair. -/
theorem buildForwardText_spec (payload : NotificationPayload) {maxLength : ℕ}
    (hmax : 3 ≤ maxLength) :
    Faithful payload maxLength (buildForwardText payload maxLength) ∧
      (WellFormed (buildForwardText payload maxLength) ↔ ¬ CutsPair payload maxLength) := by
  refine ⟨faithful_buildForwardText payload hmax, ?_⟩
  have htext := wellFormed_forwardText payload
  rw [buildForwardText_eq, CutsPair]
  by_cases hfits : (forwardText payload).length ≤ maxLength
  · rw [if_pos hfits]
    simp [htext, hfits]
  · rw [if_neg hfits, wellFormed_append_iff (wellFormed_units "..."),
      wellFormed_take_iff htext (by omega)]
    simp [not_le.mp hfits]

/-! ## The defect -/

def plain (content : String) : NotificationPayload := ⟨"X", "T", "", content, none⟩

/-- A message of 2045 emojis, which fills what one message may hold. -/
def festive : NotificationPayload := plain (String.ofList (List.replicate 2045 '🎉'))

theorem buildForwardText_spec_plain :
    3 ≤ Telegram.maxMessageLength ∧
      Faithful (plain "text") Telegram.maxMessageLength
        (buildForwardText (plain "text") Telegram.maxMessageLength) ∧
      (WellFormed (buildForwardText (plain "text") Telegram.maxMessageLength) ↔
        ¬ CutsPair (plain "text") Telegram.maxMessageLength) :=
  ⟨by decide, buildForwardText_spec (plain "text") (by decide)⟩

theorem forwardText_plain (content : String) : forwardText (plain content) =
    [0x3010, 88, 0x3011, 10, 0x3010, 84, 0x3011, 10] ++ units content := by
  have hlabel : units "【X】" = [0x3010, 88, 0x3011] := by decide
  have htarget : units "【T】" = [0x3010, 84, 0x3011] := by decide
  have hlines : forwardLines (plain content) = ["【X】", "【T】", content] := rfl
  rw [forwardText, hlines, List.map_cons, List.map_cons, List.map_cons, List.map_nil, hlabel,
    htarget, List.intercalate_cons_cons, List.intercalate_cons_cons, List.intercalate_singleton]
  rfl

theorem forwardText_festive : forwardText festive =
    [0x3010, 88, 0x3011, 10, 0x3010, 84, 0x3011, 10] ++
      (List.replicate 2045 '🎉').flatMap utf16Char := by
  rw [festive, forwardText_plain, units, utf16, String.toList_ofList]

theorem festive_illFormed :
    ¬ WellFormed (buildForwardText festive Telegram.maxMessageLength) := by
  rw [(buildForwardText_spec festive (by decide)).2, not_not, CutsPair, forwardText_festive]
  refine ⟨?_, 4092, 0xD83C, rfl, ?_, by decide⟩
  · decide +kernel
  · decide +kernel

end SocialMonitor.Channels
