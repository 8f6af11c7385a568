import Metamodel.Data.Ini
import Metamodel.Data.Json.Reader
import Metamodel.Data.Json5
import Metamodel.Data.Ron
import Metamodel.Data.Toml
import Metamodel.Data.Yaml.Reader

/-!
The formats of settings files, and how a file name tells which of them a file has.
-/

namespace Metamodel.Configuration

inductive Format
  | toml
  | json
  | yaml
  | ini
  | ron
  | json5
  deriving DecidableEq

namespace Format

/-- All formats, in the order in which files of them are looked for. -/
def all : List Format := [toml, json, yaml, ini, ron, json5]

/-- What the names of files end in. -/
def extensions : Format → List String
  | toml => ["toml"]
  | json => ["json"]
  | yaml => ["yaml", "yml"]
  | ini => ["ini"]
  | ron => ["ron"]
  | json5 => ["json5"]

/-- The format of a file by the end of its name. -/
def ofExtension? (extension : String) : Option Format :=
  all.find? fun format => format.extensions.contains extension

/-- The data in a text. -/
def read? : Format → String → Option Data
  | toml => Toml.read?
  | json => Data.Json.read?
  | yaml => Yaml.read?
  | ini => Ini.read?
  | ron => Ron.read?
  | json5 => Json5.read?

end Format

end Metamodel.Configuration
