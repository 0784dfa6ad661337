import TypeLineage.Fact
import TypeLineage.Java.Unit
import TypeLineage.Text.Capital

/-!
# Resolution of written names

A source text names supertypes as is convenient there: by the mere name, with a package, or as a
member of another type. Which type is meant depends on the imports and the package of the unit, and
on which types there are.

## The model

The part before the first point is resolved like a simple name, unless it starts with a small letter
and is not imported: then it is a package, and the name is complete. A single import decides without
asking whether the type exists. Otherwise the package of the unit, the imports on demand in their
order, and at last `java.lang` are tried. What is left behind the point names a member, which inside
the library is set off by dollar signs.
-/

namespace TypeLineage.Resolution

/-- The type of a simple name in a package. -/
def inPackage (package simple : String) : TypeName :=
  .ofString (if package.isEmpty then simple else package ++ "." ++ simple)

/-- A written name cut at its first point. -/
def cutName (written : String) : String × Option String :=
  let chars := written.toList
  let head := chars.takeWhile (· != '.')
  (String.ofList head,
    match chars.dropWhile (· != '.') with
    | [] => none
    | _ :: member => some (String.ofList member))

/-- The type of a simple name that no single import names; `exists?` tells which types there are. -/
def resolveSimple (unit : Java.Unit) (exists? : TypeName → Bool) (simple : String) : TypeName :=
  let candidates :=
    inPackage unit.package simple ::
      unit.onDemandImports.map fun imported => inPackage imported.path simple
  (candidates.find? exists?).getD (inPackage "java.lang" simple)

/-- A member of a type. -/
def memberOf (outer : TypeName) (member : String) : TypeName :=
  .ofString (outer.internal ++ "$" ++
    String.ofList (member.toList.map fun c => if c = '.' then '$' else c))

/-- Whether a name starts with a capital letter. -/
def startsWithCapital (name : String) : Bool :=
  name.toList.head?.any Text.isCapital

/-- The type that a written name means; `exists?` tells which types there are. -/
def resolve (unit : Java.Unit) (exists? : TypeName → Bool) (written : String) : TypeName :=
  let (head, member?) := cutName written
  let within (outer : TypeName) : TypeName :=
    match member? with
    | none => outer
    | some member => memberOf outer member
  match unit.singleImport? head with
  | some imported => within (.ofString imported.path)
  | none =>
    if member?.isSome && !startsWithCapital head then .ofString written
    else within (resolveSimple unit exists? head)

/-- The superclass of a declared type, which is implied unless a class names one. -/
def superclass (unit : Java.Unit) (exists? : TypeName → Bool) (name : TypeName)
    (declaration : Java.Declaration) : Option TypeName :=
  match declaration.kind with
  | .class =>
    match declaration.superclass with
    | some written => some (resolve unit exists? written)
    | none => if name = .object then none else some .object
  | .interface => some .object
  | .annotationType => some .object
  | .enumeration => some .enumeration
  | .record => some .record

/-- The interfaces of a declared type; an annotation type has one that is not written. -/
def interfaces (unit : Java.Unit) (exists? : TypeName → Bool) (declaration : Java.Declaration) :
    List TypeName :=
  declaration.interfaces.map (resolve unit exists?) ++
    if declaration.kind = .annotationType then [.annotationInterface] else []

/-- The fact about a declared type. -/
def fact (unit : Java.Unit) (exists? : TypeName → Bool) (name : TypeName)
    (declaration : Java.Declaration) : Fact where
  subject := name
  superclass := superclass unit exists? name declaration
  interfaces := interfaces unit exists? declaration

end TypeLineage.Resolution
