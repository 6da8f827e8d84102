import CrateDocs.Crate.Decode
import CrateDocs.Crate.Members
import CrateDocs.Crate.Suggest
import CrateDocs.Decimal.Fixed

/-!
# Reports

The lines that the commands print: the summary and the problems of a document, the description of
what was looked up, and suggestions where nothing was found.
-/

namespace CrateDocs

namespace Report

mutual

/-- A type in short. Paths are shown as the crate knows them; what is rarely seen is left open. -/
def typeName (crate : Crate) : TypeExpr → String
  | .resolvedPath ⟨name, id, _⟩ =>
    match crate.pathOf? id with
    | some path => path.render
    | none => name
  | .generic name => name
  | .primitive name => name
  | .borrowedRef _ isMutable type =>
    "&" ++ (if isMutable then "mut " else "") ++ typeName crate type
  | .slice type => "[" ++ typeName crate type ++ "]"
  | .tuple types => "(" ++ ", ".intercalate (typeNames crate types) ++ ")"
  | .dynTrait _ _ | .functionPointer _ _ _ | .array _ _ | .implTrait _ | .infer
  | .rawPointer _ _ | .qualifiedPath _ _ _ _ => "_"

def typeNames (crate : Crate) : List TypeExpr → List String
  | [] => []
  | type :: types => typeName crate type :: typeNames crate types

end

/-- The lines of a section, under its heading if there is anything in it. -/
def listed (heading : String) (lines : List String) : List String :=
  if lines.isEmpty then [] else heading :: lines

/-- The line of an implementation; an item that is no implementation has none. -/
def implLine (crate : Crate) (block : Item) : Option String :=
  match block.payload with
  | .impl i =>
    match i.trait with
    | some trait =>
      some ("    impl " ++ typeName crate trait ++ " for " ++ typeName crate i.type)
    | none => some ("    impl " ++ typeName crate i.type)
  | _ => none

def childLine (child : Node) : String :=
  "    " ++ child.kind.name ++ " " ++ child.name?.getD "_"

/-- The line of the parameters that were written out, if there are any. -/
def genericsLine (item : Item) : List String :=
  match item.payload.generics? with
  | some generics =>
    let names := generics.explicitParams.map Param.name
    if names.isEmpty then [] else ["  generics: <" ++ ", ".intercalate names ++ ">"]
  | none => []

/-- The implementations of an item. The heading stands whenever any is known. -/
def implLines (crate : Crate) (item : Item) : List String :=
  let blocks := crate.implementations item
  if blocks.isEmpty then []
  else "  implementations:" :: blocks.filterMap (implLine crate)

def itemLines (crate : Crate) (item : Item) : List String :=
  genericsLine item ++
    (if item.payload.isStripped then ["  (incomplete: some members are private)"] else []) ++
    listed "  children:" ((crate.children item).map childLine) ++
    implLines crate item

def nodeLines (crate : Crate) (node : Node) : List String :=
  (node.kind.name ++ " " ++ node.id.text) ::
    ((node.path? crate).toList.map fun path => "  path: " ++ path.render) ++
    (match node.item? with
      | some item => itemLines crate item
      | none => [])

/-- The line of a suggestion, with its score to two places. -/
def suggestionLine (suggestion : Suggestion) : String :=
  "  " ++ suggestion.path.render ++ " (" ++ suggestion.id.text ++ ", " ++
    Decimal.fixed 2 suggestion.score ++ ")"

def missLines (query : String) (suggestions : List Suggestion) : List String :=
  ("nothing found for `" ++ query ++ "`") ::
    listed "did you mean:" (suggestions.map suggestionLine)

def checkLines (decoded : Decoded) : List String :=
  let crate := decoded.crate
  [crate.name?.getD "<unnamed>" ++ " " ++ crate.version.getD "<no version>",
    "  " ++ toString crate.index.size ++ " items, " ++ toString crate.paths.size ++ " paths, " ++
      toString crate.externalCrates.size ++ " external crates"] ++
  if decoded.diagnostics.isEmpty then ["  no diagnostics"]
  else
    ("  " ++ toString decoded.diagnostics.length ++ " diagnostics:") ::
      decoded.diagnostics.map fun diagnostic => "    " ++ diagnostic.message

end Report

end CrateDocs
