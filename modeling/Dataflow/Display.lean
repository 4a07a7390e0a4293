import Dataflow.Method

/-!
# Groups and methods in display order

* `Mode`: methods are shown by library or by package.
* `groups`, `groupOrder`: the groups of methods, and their names with the least supported group
  first, then the one with the most usages, then the largest, then by name.
* `bucket`, `sortMethods`: the methods of a group, those that ask for attention first.
-/

namespace Dataflow

/-- What is being modeled: the libraries that an application calls, or a framework itself. -/
inductive Mode where
  | application
  | framework
  deriving DecidableEq, Repr

namespace Mode

/-- The wire name of a mode. -/
def name : Mode → String
  | application => "application"
  | framework => "framework"

instance : Named Mode where
  all := [.application, .framework]
  name := name

/-- The mode of a name. -/
def ofText (text : String) : Except UnknownName Mode :=
  Named.ofText "mode" text

/-- The name of the group a method is shown in. -/
def groupName : Mode → Method → String
  | application, method => method.library
  | framework, method => method.identity.package

end Mode

namespace Display

/-! ## Groups -/

/-- The methods of each group, in the order they were given. -/
def groups (mode : Mode) (methods : List Method) : Keyed (List Method) :=
  Keyed.group mode.groupName methods

/-- The number of supported methods of a group. -/
def supportedCount (methods : List Method) : Nat :=
  methods.countP Method.supported

/-- What the number of supported methods is out of; an empty group counts as none out of one. -/
def groupSize (methods : List Method) : Nat :=
  if methods.isEmpty then 1 else methods.length

/-- The number of places that use the methods of a group. -/
def totalUsages (methods : List Method) : Nat :=
  methods.foldr (fun method total => method.usageCount + total) 0

/-- The order of two groups by the share of supported methods. -/
def compareShare (a b : List Method) : Ordering :=
  compare (supportedCount a * groupSize b) (supportedCount b * groupSize a)

/-- The display order of groups. -/
def compareGroups (a b : String × List Method) : Ordering :=
  (compareShare a.2 b.2).then <|
    (compare (totalUsages b.2) (totalUsages a.2)).then <|
      (compare b.2.length a.2.length).then (compare a.1 b.1)

/-- The names of groups in display order. -/
def groupOrder (groups : Keyed (List Method)) : List String :=
  (groups.mergeSort fun a b => (compareGroups a b).isLE).map Prod.fst

/-! ## Methods -/

/-- What is known of the work on methods: their models, the signatures with unsaved edits, and those
that automatic modeling has seen. -/
structure Progress where
  models : ModelIndex
  unsaved : List String
  autoProcessed : List String

namespace Progress

/-- Some model of a signature says something. -/
def hasModel (progress : Progress) (signature : String) : Bool :=
  ((progress.models.get? signature).getD []).any fun modeled => modeled.model.isModeled

/-- A method is open when it is not supported, or when it has a model or unsaved edits. -/
def isOpen (progress : Progress) (method : Method) : Bool :=
  !method.supported || progress.hasModel method.signature ||
    progress.unsaved.contains method.signature

/-- The part of the display a method belongs to, the first being 0. -/
def bucket (progress : Progress) (method : Method) : Nat :=
  let modeled := progress.hasModel method.signature
  let unsaved := progress.unsaved.contains method.signature
  let seen := progress.autoProcessed.contains method.signature
  if !progress.isOpen method then 4
  else if modeled && unsaved && seen then 0
  else if !modeled && seen then 1
  else if modeled && unsaved || !modeled then 2
  else 3

/-- The display order of methods: by bucket, then the most used first, then by signature. -/
def compareMethods (progress : Progress) (a b : Method) : Ordering :=
  (compare (progress.bucket a) (progress.bucket b)).then <|
    (compare b.usageCount a.usageCount).then (compare a.signature b.signature)

/-- Methods in display order; methods that tie keep their order. -/
def sortMethods (progress : Progress) (methods : List Method) : List Method :=
  methods.mergeSort fun a b => (progress.compareMethods a b).isLE

end Progress

/-- The signatures of each group, groups and methods in display order. -/
def layOut (mode : Mode) (progress : Progress) (methods : List Method) :
    List (String × List String) :=
  let groups := groups mode methods
  (groupOrder groups).map fun name =>
    (name, (progress.sortMethods ((groups.get? name).getD [])).map Method.signature)

end Display

end Dataflow
