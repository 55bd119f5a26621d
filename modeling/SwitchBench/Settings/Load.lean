import SwitchBench.Settings.Layout
import SwitchBench.Toml.Document

/-!
# Loading settings

Settings are loaded from a file that holds a TOML document in UTF-8. What is found in the place of
the file is a `SettingsFile`, so that loading is a function.
-/

namespace SwitchBench

/-- What is found where settings should be. -/
inductive SettingsFile where
  | missing
  /-- Something that cannot be read, such as a directory. -/
  | unreadable
  | holding (bytes : ByteArray)

/-- Why settings could not be loaded. -/
inductive LoadError where
  | notFound
  /-- There is no text to read. -/
  | unreadable
  /-- The text is not a document, or not one of these settings. -/
  | malformed
  deriving Repr, DecidableEq

/-- The text of a load error, as far as it does not depend on the place of the mistake. -/
def LoadError.message : LoadError → String
  | notFound => "Configuration file not found"
  | unreadable | malformed => "Failed to parse configuration"

namespace SettingsFile

/-- Loads what a reader of values makes of the document in a file. -/
def load {α : Type} (read : Toml.Value → Option α) : SettingsFile → Except LoadError α
  | missing => .error .notFound
  | unreadable => .error .unreadable
  | holding bytes =>
    match String.fromUTF8? bytes with
    | none => .error .unreadable
    | some text =>
      match (Toml.document? text).bind read with
      | none => .error .malformed
      | some a => .ok a

/-- A file that holds a text. -/
def ofText (text : String) : SettingsFile := holding text.toUTF8

end SettingsFile

end SwitchBench
