import PriceScout.Library.Escapes
import PriceScout.Library.GoStrings

/-!
The texts of a Discord message that come from a retailer's page or from the
user: their markup is escaped, and then they are cut to the length Discord
accepts, possibly between a backslash and the character it escapes.
-/

namespace PriceScout.Alertdelivery.DiscordTexts

open PriceScout.Library.Escapes
open PriceScout.Library.GoStrings

def replacements : List (Char × String) :=
  [('\\', "\\\\"), ('*', "\\*"), ('_', "\\_"), ('~', "\\~"), ('\x60', "\\`"), ('|', "\\|"),
    ('>', "\\>"), ('[', "\\["), (']', "\\]"), ('(', "\\("), (')', "\\)")]

def escapeMarkdown (value : String) : String :=
  replaceAll replacements value

def truncateDiscord (value : String) (limit : Nat) : String :=
  if value.length ≤ limit then value
  else String.ofList (value.toList.take (limit - 1)) ++ "…"

/-- The characters with which Discord marks a text up. -/
def markup : List Char :=
  ['*', '_', '~', '\x60', '|', '>', '[', ']', '(', ')']

/-- A backslash, or a character of the markup. -/
def special (c : Char) : Bool :=
  c = '\\' || markup.contains c

theorem toList_escapeMarkdown (value : String) :
    (escapeMarkdown value).toList = escape '\\' special value.toList := by
  rw [escapeMarkdown, replaceAll, String.toList_ofList, escape]
  congr 1
  funext c
  by_cases hc : special c = true
  · have hcases : c = '\\' ∨ c ∈ markup := by simpa [special] using hc
    rw [if_pos hc]
    simp only [markup, List.mem_cons, List.not_mem_nil, or_false] at hcases
    rcases hcases with rfl | rfl | rfl | rfl | rfl | rfl | rfl | rfl | rfl | rfl | rfl <;> rfl
  · have hnot : ∀ pair ∈ replacements, c ≠ pair.1 := by
      rintro pair hpair rfl
      apply hc
      revert pair
      decide
    rw [if_neg hc, List.lookup_eq_none_iff.mpr (by simpa using hnot)]

theorem length_truncateDiscord (value : String) {limit : Nat} (hlimit : 0 < limit) :
    (truncateDiscord value limit).length ≤ limit := by
  unfold truncateDiscord
  split
  · assumption
  · rw [String.length_append, String.length_ofList, List.length_take]
    have hmark : "…".length = 1 := rfl
    omega

/-- What an escaped text is cut to has none of its markup left. -/
theorem not_markup_of_bare (value : String) (limit : Nat) :
    ∀ c ∈ bare '\\' (truncateDiscord (escapeMarkdown value) limit).toList, c ∉ markup := by
  have hbare : ∀ c ∈ bare '\\' (truncateDiscord (escapeMarkdown value) limit).toList,
      special c = false := by
    unfold truncateDiscord
    split
    · rw [toList_escapeMarkdown]
      exact bare_escape rfl value.toList
    · rw [String.toList_append, String.toList_ofList, toList_escapeMarkdown]
      exact bare_take_escape rfl rfl (limit - 1) value.toList
  intro c hc hmarkup
  have hspecial : special c = true := by simp [special, hmarkup]
  rw [hbare c hc] at hspecial
  cases hspecial

/-- For every title and every intent: the text is within Discord's limit, no
markup in it has a meaning, also where it was cut, and nothing is lost of a
text that fits. -/
theorem discord_text_is_bounded_and_inert (s : String) :
    (truncateDiscord (escapeMarkdown s) 500).length ≤ 500 ∧
      (∀ c ∈ bare '\\' (truncateDiscord (escapeMarkdown s) 500).toList, c ∉ markup) ∧
      ((escapeMarkdown s).length ≤ 500 →
        unescape '\\' (truncateDiscord (escapeMarkdown s) 500).toList = s.toList) := by
  refine ⟨length_truncateDiscord _ (by omega), not_markup_of_bare s 500, fun hfits => ?_⟩
  rw [truncateDiscord, if_pos hfits, toList_escapeMarkdown]
  exact unescape_escape rfl s.toList

example : truncateDiscord (escapeMarkdown "*a*") 4 = "\\*a…" := by decide

end PriceScout.Alertdelivery.DiscordTexts
