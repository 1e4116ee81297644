import VpnTunnel.File.Tree
import VpnTunnel.Settings.Document

/-!
# Settings files

A file of settings is TOML or JSON, as its extension says; the extension is looked at before the
file.
-/

namespace VpnTunnel

inductive SettingsFormat where
  | toml
  | json
deriving DecidableEq, Repr

inductive SettingsError where
  | io (e : FileError)
  /-- The text is not in the format, or does not describe settings. -/
  | unreadable
  | unknownFormat
deriving DecidableEq, Repr

/-- The words for a failure. How a text breaks the rules of its format is not told. -/
def SettingsError.message? : SettingsError → Option String
  | io e => some ("IO error: " ++ e.message)
  | unreadable => none
  | unknownFormat => some "Unsupported settings format (expected .toml or .json)"

def SettingsFormat.ofPath (path : String) : Except SettingsError SettingsFormat :=
  match Path.extension? path with
  | some "toml" => .ok .toml
  | some "json" => .ok .json
  | _ => .error .unknownFormat

namespace Settings

def ofText? : SettingsFormat → String → Option Settings
  | .toml => ofToml?
  | .json => ofJson?

/-- The settings in a file. -/
def load (read : FileReader) (path : String) : Except SettingsError Settings := do
  let format ← SettingsFormat.ofPath path
  let text ← (read.text path).mapError .io
  match ofText? format text with
  | some s => return s
  | none => .error .unreadable

end Settings

end VpnTunnel
