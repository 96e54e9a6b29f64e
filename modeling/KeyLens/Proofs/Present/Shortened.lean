import KeyLens.Proofs.Present.Meanings
import KeyLens.Proofs.Store.Transparency
import Mathlib.Data.List.Forall2

/-!
# Shortened values

A value is shown whole if it has no more characters than the limit, and otherwise a beginning of it
stands in front of an ellipsis, with as many characters as the limit in all. Only a limit that is
shorter than the ellipsis is not kept. Hints and hover documents show values within limits that have
room for it.
-/

namespace KeyLens

namespace Present

/-! ### Shortening -/

variable {text : List Char} {value shown : String} {limit : Nat}

/-- A text within the limit stays. -/
theorem truncateChars_of_le (h : text.length ≤ limit) : truncateChars text limit = text := if_pos h

/-- A longer text is cut. -/
theorem truncateChars_of_lt (h : limit < text.length) :
    truncateChars text limit = text.take (limit - 3) ++ ellipsis :=
  if_neg (Nat.not_le.mpr h)

/-- A text that is cut has the limit's number of characters, and at least those of the ellipsis. -/
theorem length_truncateChars_of_lt (h : limit < text.length) :
    (truncateChars text limit).length = max limit 3 := by
  have hellipsis : ellipsis.length = 3 := rfl
  rw [truncateChars_of_lt h, List.length_append, List.length_take, hellipsis]
  omega

/-- The limit is kept for a text within it, and if it has room for the ellipsis. -/
theorem length_truncateChars_le_iff :
    (truncateChars text limit).length ≤ limit ↔ text.length ≤ limit ∨ 3 ≤ limit := by
  by_cases h : text.length ≤ limit
  · rw [truncateChars_of_le h]
    exact iff_of_true h (Or.inl h)
  · rw [length_truncateChars_of_lt (by omega)]
    omega

/-- With room for the ellipsis only a text within the limit stays. -/
theorem truncateChars_eq_self_iff (hlimit : 3 ≤ limit) :
    truncateChars text limit = text ↔ text.length ≤ limit := by
  refine ⟨fun h => ?_, truncateChars_of_le⟩
  rw [← h]
  exact length_truncateChars_le hlimit

/-- A shortened text is not shortened any more. -/
theorem truncateChars_truncateChars (text : List Char) (limit : Nat) :
    truncateChars (truncateChars text limit) limit = truncateChars text limit := by
  by_cases hlimit : 3 ≤ limit
  · exact truncateChars_of_le (length_truncateChars_le hlimit)
  · by_cases h : text.length ≤ limit
    · rw [truncateChars_of_le h, truncateChars_of_le h]
    · -- Nothing of the text is left in front of the ellipsis, and it is cut to itself.
      have hdots : truncateChars text limit = ellipsis := by
        have hnone : limit - 3 = 0 := by omega
        rw [truncateChars_of_lt (by omega), hnone, List.take_zero, List.nil_append]
      have hcut : truncateChars ellipsis limit = ellipsis := by
        have hnone : limit - 3 = 0 := by omega
        have hlong : limit < ellipsis.length := Nat.not_le.mp hlimit
        rw [truncateChars_of_lt hlong, hnone, List.take_zero, List.nil_append]
      rw [hdots, hcut]

/-! ### Shown values -/

/-- The forms of a value within a limit: it stands whole, or a beginning of it stands in front of
an ellipsis. -/
inductive Shortened (limit : Nat) (value : String) : String → Prop where
  /-- The value has no more characters than the limit. -/
  | whole (hlength : value.length ≤ limit) : Shortened limit value value
  /-- The value has more characters, and its beginning and the ellipsis have as many as the
  limit. -/
  | cut {front : String} (hlength : limit < value.length)
      (hfront : front.toList <+: value.toList) (hlimit : (front ++ "...").length = limit) :
      Shortened limit value (front ++ "...")

/-- A value has one form within a limit. -/
theorem Shortened.eq_truncate (h : Shortened limit value shown) :
    truncate value limit = shown := by
  rw [← String.toList_inj, truncate, String.toList_ofList]
  cases h with
  | whole hlength => exact truncateChars_of_le (by rwa [String.length_toList])
  | @cut front hlength hfront hlimit =>
    have hellipsis : "...".length = 3 := rfl
    rw [String.length_append, hellipsis] at hlimit
    have hcount : limit - 3 = front.toList.length := by
      rw [String.length_toList]
      omega
    rw [truncateChars_of_lt (by rwa [String.length_toList]), hcount,
      ← List.prefix_iff_eq_take.mp hfront, String.toList_append]
    rfl

/-- With room for the ellipsis a value is shown in its form within the limit. -/
theorem shortened_truncate (hlimit : 3 ≤ limit) (value : String) :
    Shortened limit value (truncate value limit) := by
  by_cases h : value.length ≤ limit
  · have hsame : truncate value limit = value := by
      rw [truncate, truncateChars_of_le (by rwa [String.length_toList]), String.ofList_toList]
    rw [hsame]
    exact .whole h
  · have hlength : limit < value.toList.length := by
      rw [String.length_toList]
      omega
    have hcut : truncate value limit = String.ofList (value.toList.take (limit - 3)) ++ "..." := by
      rw [← String.toList_inj, truncate, String.toList_ofList, truncateChars_of_lt hlength,
        String.toList_append, String.toList_ofList]
      rfl
    have hfull : (truncate value limit).length = limit := by
      rw [truncate, String.length_ofList, length_truncateChars_of_lt hlength]
      omega
    rw [hcut] at hfull ⊢
    refine .cut (by omega) ?_ hfull
    rw [String.toList_ofList]
    exact List.take_prefix _ _

/-- What is shown of a value within a limit: a form of it, or the sign of a missing one. -/
def IsShown (limit : Nat) : Option String → String → Prop
  | some value, shown => Shortened limit value shown
  | none, shown => shown = "<missing>"

/-- With room for the ellipsis values are shown within the limit. -/
theorem isShown_shownValue (hlimit : 3 ≤ limit) (found : Option String) :
    IsShown limit found (shownValue limit found) := by
  cases found with
  | none => rfl
  | some value => exact shortened_truncate hlimit value

end Present

open Present

/-! ### Hints -/

/-- A line shows what was found in a language. -/
def ShowsLine (limit : Nat) (meaning : String × Resolved) (line : String) : Prop :=
  ∃ shown, IsShown limit meaning.2.value shown ∧ line = meaning.1 ++ ": " ++ shown

namespace Hint

/-- The text of a hint shows its value, and the lines below it show what a store finds for its key
in each of some languages; another line may tell how many languages are left. -/
structure KeepsLimit (hint : Hint) (limit : Nat) (provider : Provider) (languages : List String) :
    Prop where
  /-- The text of the hint. -/
  label : ∃ shown, IsShown limit hint.resolved.value shown ∧
    hint.label = "i18n[" ++ hint.language ++ "]: " ++ shown
  /-- The lines below it. -/
  lines : ∃ (store : Store) (rows more : List String), hint.blockLines = rows ++ more ∧
    List.Forall₂ (ShowsLine limit)
      (store.resolveEach provider hint.namespaces hint.key languages).value rows ∧
    (more = [] ∨ ∃ count : Nat, more = ["+" ++ toString count ++ " more"])

end Hint

namespace Store

variable {provider : Provider} {store : Store} {language : String} {languages : List String}

/-- A hint keeps its limit. -/
theorem keepsLimit_hint (provider : Provider) (store : Store) (language : String)
    (languages : List String) (info : CallInfo) (position : Position) :
    (store.hint provider language languages info position).value.KeepsLimit 120 provider
      (Hint.listed languages) where
  label := ⟨_, isShown_shownValue (by decide) _, rfl⟩
  lines := by
    refine ⟨(store.resolveFirst provider info.namespaces info.key language).store, _, _, rfl,
      ?_, ?_⟩
    · rw [List.forall₂_map_right_iff]
      exact List.forall₂_same.mpr fun meaning _ => ⟨_, isShown_shownValue (by decide) _, rfl⟩
    · simp only [Hint.moreLine]
      split
      · exact Or.inl rfl
      · exact Or.inr ⟨_, rfl⟩

/-- Each of the hints for calls is the hint for one of them, found in some store. -/
theorem exists_of_mem_hintsFor {calls : List (CallInfo × Position)} {hint : Hint}
    (h : hint ∈ (store.hintsFor provider language languages calls).value) :
    ∃ earlier : Store, ∃ call ∈ calls,
      hint = (earlier.hint provider language languages call.1 call.2).value := by
  induction calls generalizing store with
  | nil => cases h
  | cons call rest ih =>
    rcases List.mem_cons.mp h with rfl | hlater
    · exact ⟨store, call, List.mem_cons_self, rfl⟩
    · obtain ⟨earlier, other, hother, heq⟩ := ih hlater
      exact ⟨earlier, other, List.mem_cons_of_mem call hother, heq⟩

/-- The hints of a host keep their limit. -/
theorem keepsLimit_of_mem_hints {config : Config} {host : Host} {hint : Hint}
    (h : hint ∈ (store.hints provider config host).value) :
    hint.KeepsLimit 120 provider
      (Hint.listed (if config.showAllLanguages then store.languages provider else [])) := by
  obtain ⟨earlier, call, -, rfl⟩ := exists_of_mem_hintsFor h
  exact keepsLimit_hint _ _ _ _ _ _

end Store

/-! ### Hover documents -/

namespace HoverDoc

/-- A namespace beside a value in a line of text. -/
def placeText : Option String → String
  | none => ""
  | some name => " (" ++ name ++ ")"

/-- A namespace beside a value in markup. -/
def placePieces : Option String → List Markup
  | none => []
  | some name => [.text " ", .tag "i", .text "(", .text name, .text ")", .tag "/i"]

/-- A value is shown within a limit in the line of its language, and in markup. -/
def KeepsLimit (doc : HoverDoc) (limit : Nat) (entry : HoverEntry) (value : String) : Prop :=
  ∃ shown, Shortened limit value shown ∧
    doc.entryLine entry =
      entry.language ++ ": " ++ shown ++ placeText (doc.indicator? entry) ++ "\n" ∧
    doc.entryPieces entry = [.tag "b", .text entry.language, .text ":", .tag "/b", .text " ",
      .text shown] ++ placePieces (doc.indicator? entry) ++ [.tag "br/"]

/-- The entries of a hover document keep their limit. -/
theorem keepsLimit_entry (doc : HoverDoc) {entry : HoverEntry} {value : String}
    (hvalue : entry.resolved.value = some value) : doc.KeepsLimit 200 entry value := by
  refine ⟨truncate value 200, shortened_truncate (by decide) value, ?_, ?_⟩
  · cases hplace : doc.indicator? entry <;>
      simp [entryLine, shownValue, greatestValue, placeText, hvalue, hplace]
  · cases hplace : doc.indicator? entry <;>
      simp [entryPieces, valuePieces, greatestValue, placePieces, hvalue, hplace]

end HoverDoc

/-- A shortened value is not shortened any more, and the limit is kept for a value within it and
wherever there is room for the ellipsis. With that room, exactly a value within the limit stays, and
what is shown is the one form of the value within the limit. Hints show at most 120 characters of a
value, and hover documents at most 200. -/
theorem Present.truncate_keeps_limit (value : String) (limit : Nat) (provider : Provider)
    (store : Store) (config : Config) (host : Host) (doc : HoverDoc) :
    truncate (truncate value limit) limit = truncate value limit ∧
    ((truncate value limit).length ≤ limit ↔ value.length ≤ limit ∨ 3 ≤ limit) ∧
    (3 ≤ limit → (truncate value limit = value ↔ value.length ≤ limit) ∧
      ∀ shown, truncate value limit = shown ↔ Shortened limit value shown) ∧
    (∀ hint ∈ (store.hints provider config host).value, hint.KeepsLimit 120 provider
      (Hint.listed (if config.showAllLanguages then store.languages provider else []))) ∧
    ∀ entry found, entry.resolved.value = some found → doc.KeepsLimit 200 entry found := by
  refine ⟨?_, ?_, fun hlimit => ⟨?_, fun shown => ⟨?_, ?_⟩⟩,
    fun hint hhint => Store.keepsLimit_of_mem_hints hhint,
    fun entry found => doc.keepsLimit_entry⟩
  · rw [truncate, truncate, String.toList_ofList, truncateChars_truncateChars]
  · rw [truncate, String.length_ofList, length_truncateChars_le_iff, String.length_toList]
  · rw [← String.toList_inj, truncate, String.toList_ofList, truncateChars_eq_self_iff hlimit,
      String.length_toList]
  · rintro rfl
    exact shortened_truncate hlimit value
  · exact Shortened.eq_truncate

/-- A text of 121 characters that take two bytes each. -/
def Present.wideValue : String := String.ofList (List.replicate 121 'é')

/-- A hover document with that value. -/
def Present.wideDoc : HoverDoc where
  key := ⟨"a"⟩
  candidates := ⟨["wide"], by decide⟩
  namespaces := ["wide"]
  span := ⟨0, 11⟩
  entries := [⟨"en", .found "wide" wideValue⟩]

/-- A value of wide characters is cut between characters where it does not fit, also in a hint, and
stands whole where it does, in a hover document. -/
theorem Present.truncate_keeps_limit_of_wide_characters :
    let files := Store.filesWith ⟨"/locales/en/common.json"⟩ (some (⟨1, 9⟩, [("a", .string wideValue)]))
    let store := Store.ofDirectory (some ⟨"/locales"⟩)
    let host : Host := ⟨⟨"t($ => $.a)"⟩, [.call "t" ["$ => $.a"] ⟨0, 11⟩]⟩
    3 ≤ 4 ∧ truncate (truncate "ééééé" 4) 4 = "é..." ∧ Shortened 4 "ééééé" "é..." ∧
      (∃ hint ∈ (store.hints files Config.default host).value,
        hint.resolved.value = some wideValue ∧
          hint.KeepsLimit 120 files (Hint.listed (store.languages files))) ∧
      ∃ entry ∈ wideDoc.entries, entry.resolved.value = some wideValue ∧
        wideDoc.KeepsLimit 200 entry wideValue := by
  intro files store host
  obtain ⟨hagain, -, hroom, hhints, hentries⟩ :=
    truncate_keeps_limit "ééééé" 4 files store Config.default host wideDoc
  have hlimit : 3 ≤ 4 := by decide
  have hcut : truncate "ééééé" 4 = "é..." := by decide +kernel
  refine ⟨hlimit, hagain.trans hcut, ((hroom hlimit).2 _).mp hcut, ?_,
    _, List.mem_cons_self, rfl, hentries _ _ rfl⟩
  have hserves : store.Serves (some ⟨"/locales"⟩) [files] := Store.serves_ofDirectory _ _
  have hfaithful : StampFaithful [files] :=
    @Store.stampFaithful_filesWith ⟨"/locales/en/common.json"⟩
      [some (⟨1, 9⟩, [("a", .string wideValue)])] (by simp)
  have hgiven := (hserves.hints hfaithful (List.mem_singleton_self _) Config.default host).value_eq
  have hcalls : (host.hinted Config.default.defaultNamespace).map
      (fun call => (call.1.key, call.1.namespaces.toList)) = [(⟨"a"⟩, ["common"])] := by
    decide +kernel
  obtain ⟨call, hcall, hpair⟩ := List.map_eq_singleton_iff.mp hcalls
  obtain ⟨hkey, hnames⟩ : call.1.key = ⟨"a"⟩ ∧ call.1.namespaces.toList = ["common"] := by
    simpa only [Prod.mk.injEq] using hpair
  rw [hcall, List.map_singleton] at hgiven
  have hvalue : (files.firstMeaning (some ⟨"/locales"⟩) ⟨"a"⟩ "en" ["common"]).value =
      some wideValue := by
    decide +kernel
  rw [← hkey, ← hnames] at hvalue
  refine ⟨_, by rw [hgiven]; exact List.mem_singleton_self _, hvalue, hhints _ ?_⟩
  rw [hgiven]
  exact List.mem_singleton_self _

/-- A limit shorter than the ellipsis is not kept. -/
theorem Present.truncate_beyond_limit :
    2 < (truncate "abcd" 2).length ∧ truncate "abcd" 2 = "..." := by
  decide +kernel

end KeyLens
