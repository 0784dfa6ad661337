import TypeLineage.Text.Blank

/-!
# Type names

A type is named by the path of its package and its own name. Inside the library the parts are
separated by slashes (`java/lang/Object`); the dotted form (`java.lang.Object`) is what people write
and read. Both are accepted, and blanks around a name do not count.
-/

namespace TypeLineage

/-- The name of a type, in the form with slashes. -/
structure TypeName where
  /-- The name with its parts separated by slashes. -/
  internal : String
  deriving DecidableEq, Repr, Inhabited

namespace TypeName

/-- Writes a separating dot as a slash. -/
def slash (c : Char) : Char :=
  if c = '.' then '/' else c

/-- Writes a separating slash as a dot. -/
def dot (c : Char) : Char :=
  if c = '/' then '.' else c

/-- The type that a text names, in either form. -/
def ofString (raw : String) : TypeName :=
  ⟨String.ofList ((Text.trim raw.toList).map slash)⟩

/-- The form with dots. -/
def dotted (name : TypeName) : String :=
  String.ofList (name.internal.toList.map dot)

/-- The part of a text behind the last of some separators, or all of it. -/
def behindLast (separator : Char) (text : List Char) : List Char :=
  (text.reverse.takeWhile (· != separator)).reverse

/-- The name of the type without its package. -/
def simple (name : TypeName) : String :=
  String.ofList (behindLast '/' name.internal.toList)

/-- The path, below a root of sources, of the compilation unit that declares the type. -/
def sourcePath (name : TypeName) : String :=
  name.internal ++ ".java"

/-- Names are ordered as their texts are, by code point. -/
instance : LE TypeName := ⟨fun a b => a.internal ≤ b.internal⟩

instance : LT TypeName := ⟨fun a b => a.internal < b.internal⟩

instance : DecidableLE TypeName := fun a b => inferInstanceAs (Decidable (a.internal ≤ b.internal))

instance : DecidableLT TypeName := fun a b => inferInstanceAs (Decidable (a.internal < b.internal))

/-- Names in ascending order. -/
def sort (names : List TypeName) : List TypeName :=
  names.mergeSort fun a b => decide (a ≤ b)

/-- The different names of a list, each once. -/
def distinct (names : List TypeName) : List TypeName :=
  names.eraseDups

end TypeName

/-- The type `java.lang.Object`, the only one without a superclass. -/
def TypeName.object : TypeName := ⟨"java/lang/Object"⟩

/-- The superclass of every enumeration. -/
def TypeName.enumeration : TypeName := ⟨"java/lang/Enum"⟩

/-- The superclass of every record. -/
def TypeName.record : TypeName := ⟨"java/lang/Record"⟩

/-- The interface of every annotation type. -/
def TypeName.annotationInterface : TypeName := ⟨"java/lang/annotation/Annotation"⟩

end TypeLineage
