import Tracepoint.Descriptor.Scan
import Tracepoint.Fault

/-!
# Editing descriptors

An editor holds the text of one descriptor, the permissions that it declares and those that
are queued to be added. Rendering puts one line for each queued name, in the order of
names, in front of the closing tag and leaves every other character as it was.
-/

namespace Tracepoint.Descriptor

/-- The permission that the tracing channel needs on a device. -/
def internetPermission : String := "android.permission.INTERNET"

/-- The name of the descriptor in extracted content. -/
def fileName : String := "AndroidManifest.xml"

/-- Puts a name in its place among names that are in order and distinct. -/
def insertName (name : String) : List String → List String
  | [] => [name]
  | n :: rest =>
    if name < n then name :: n :: rest
    else if name = n then n :: rest
    else n :: insertName name rest

/-- The names that a list holds, in order and distinct. -/
def nameSet (names : List String) : List String :=
  names.foldl (fun s n => insertName n s) []

/-- An editor of one descriptor. -/
structure Editor where
  path : String
  content : String
  /-- The permissions that the content declares, in order and distinct. -/
  declared : List String
  /-- The permissions to be added, in order and distinct. -/
  queued : List String
  deriving DecidableEq, Repr

namespace Editor

/-- The editor of a text that stands at a path. -/
def ofContent (path content : String) : Editor :=
  ⟨path, content, nameSet (permissions content), []⟩

/-- Whether a permission is declared or queued. -/
def has (e : Editor) (name : String) : Bool :=
  e.declared.contains name || e.queued.contains name

/-- Queues a permission unless it is declared. -/
def add (e : Editor) (name : String) : Editor :=
  if e.declared.contains name then e else { e with queued := insertName name e.queued }

/-- The package that the content declares. -/
def package? (e : Editor) : Option String :=
  Descriptor.package? e.content

/-- The line that declares a permission. -/
def line (name : String) : List Char :=
  "    <uses-permission android:name=\"".toList ++ name.toList ++ "\" />\n".toList

/-- The content with the queued permissions declared. -/
def render (e : Editor) : Except Fault String :=
  if e.queued.isEmpty then .ok e.content
  else
    match splitAtClosing? 0 e.content.toList with
    | none => .error (.badInput (.noClosingTag e.path))
    | some (before, after) => .ok (String.ofList (before ++ e.queued.flatMap line ++ after))

/-- The editor after its queue has been written. -/
def commit (e : Editor) (rendered : String) : Editor :=
  { e with
    content := rendered
    declared := e.queued.foldl (fun s n => insertName n s) e.declared
    queued := [] }

end Editor

end Tracepoint.Descriptor
