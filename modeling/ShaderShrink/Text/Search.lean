/-!
# Substrings

Whether one text occurs inside another, character by character.
-/

namespace ShaderShrink.Text

/-- Whether `needle` stands at some place of a list of characters. -/
def occurs (needle : List Char) : List Char → Bool
  | [] => needle.isEmpty
  | c :: rest => needle.isPrefixOf (c :: rest) || occurs needle rest

/-- Whether `text` has `needle` as a substring. The empty text is a substring of every text. -/
def mentions (text needle : String) : Bool := occurs needle.toList text.toList

/-- The search finds out whether the needle is in the text. -/
theorem occurs_iff {needle text : List Char} : occurs needle text = true ↔ needle <:+: text := by
  induction text with
  | nil => rw [occurs, List.isEmpty_iff, List.infix_nil]
  | cons c rest ih =>
    rw [occurs, Bool.or_eq_true, List.isPrefixOf_iff_prefix, ih, List.infix_cons_iff]

/-- A text mentions another one if that is a piece of it. -/
theorem mentions_iff {text needle : String} :
    mentions text needle = true ↔ needle.toList <:+: text.toList := occurs_iff

end ShaderShrink.Text
