/-!
The settings that a formatted text depends on.
-/

namespace GmlLayout

structure Settings where
  /-- Indent with spaces, else with tabs. -/
  useSpaces : Bool := true
  /-- Spaces per level of indentation. -/
  spaceSize : Nat := 4
  /-- Line breaks at the end of the text. -/
  newlinesAtEnd : Nat := 1
deriving DecidableEq, Repr

namespace Settings

/-- One-line text of the settings for the log. -/
def summary (settings : Settings) : String :=
  let useSpaces := if settings.useSpaces then "True" else "False"
  s!"LangConfig(use_spaces={useSpaces}, space_size={settings.spaceSize}, "
    ++ s!"newlines_at_end={settings.newlinesAtEnd})"

end Settings

end GmlLayout
