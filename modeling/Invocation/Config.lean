import Invocation.Error
import Invocation.Event
import Invocation.Text.Unicode.Blank

/-!
# Configuration

The backends that can be asked for by name, and the choice of one through the environment. A name
is read without regard to white space around it or to the case of ASCII letters; all else is an
error that quotes the text as it was given.
-/

namespace Invocation

open Text (Layout)

/-- A backend that can be selected by name. -/
inductive BackendKind where
  /-- Portable thunks that walk the plan. -/
  | closure
  /-- Generated machine code. -/
  | machine
  deriving DecidableEq, Repr

/-- What a build of the library contains. -/
structure Build where
  /-- Whether machine code can be generated. -/
  hasMachine : Bool
  deriving DecidableEq, Repr

/-- A text that names no backend. -/
structure UnknownBackend where
  text : String
  deriving DecidableEq, Repr

namespace UnknownBackend

/-- What is said about the text. -/
def message (e : UnknownBackend) : String :=
  "Unknown thunk backend '" ++ e.text ++ "' (expected 'closure' or 'cranelift')"

/-- The structured text of the error. -/
def layout (e : UnknownBackend) : Layout := .tuple "ParseBackendError" [.text e.text]

end UnknownBackend

namespace BackendKind

/-- The name of a backend. -/
def name : BackendKind → String
  | .closure => "closure"
  | .machine => "cranelift"

/-- The capitalised name used in structured debug texts. -/
def constructorName : BackendKind → String
  | .closure => "Closure"
  | .machine => "Cranelift"

/-- Whether a build contains the backend. -/
def isAvailable (build : Build) : BackendKind → Bool
  | .closure => true
  | .machine => build.hasMachine

/-- The names a backend is known by, in lower case. -/
def ofLowerCase? (name : String) : Option BackendKind :=
  if name = "closure" then some .closure
  else if name = "cranelift" ∨ name = "jit" then some .machine
  else none

/-- The name that a text holds once white space at its ends and the case of its ASCII letters are
disregarded. -/
def normalize (text : String) : String :=
  String.ofList ((Text.Unicode.trim text.toList).map Char.toLower)

/-- Read the name of a backend. -/
def parse (text : String) : Except UnknownBackend BackendKind :=
  match ofLowerCase? (normalize text) with
  | some kind => .ok kind
  | none => .error ⟨text⟩

end BackendKind

/-- The configuration of a compiler. -/
structure Config where
  backend : BackendKind
  deriving DecidableEq, Repr

namespace Config

/-- The environment variable that selects the backend. -/
def environmentVariable : String := "RAYA_THUNK_BACKEND"

/-- The configuration where nothing is said. -/
def default : Config := ⟨.closure⟩

/-- The configuration for a value of the environment variable, and what is reported about it: a
value that names no backend is one warning, and the default is used. -/
def ofVariable : Option String → Config × List Event
  | none => (default, [])
  | some value =>
    match BackendKind.parse value with
    | .ok kind => (⟨kind⟩, [])
    | .error e => (default, [.unknownBackend environmentVariable value e.message])

/-- The value of an environment variable; bytes that are no text count as an unset variable. -/
def variableText (bytes : Option ByteArray) : Option String := bytes.bind String.fromUTF8?

/-- The structured text of a configuration. -/
def layout (c : Config) : Layout :=
  .record "CompilerConfig" [("backend", .leaf c.backend.constructorName)]

end Config
end Invocation
