import CrateDocs.Crate.Dangling
import CrateDocs.Crate.Format
import CrateDocs.Crate.Mode
import CrateDocs.Json.Reader

/-!
# Decoding documents

A document is decoded in phases, of which the first to fail decides the error: its version, the
presence of the other fields, the plain fields, the external crates, the index, the paths, the
references between items, and the root. Entries of the index are read independently of each other.
A lenient decoding drops the broken ones and reports them beside the crate, followed by the
references that lead nowhere; a strict one stops at the first such report.
-/

namespace CrateDocs

/-- A crate and the problems that were tolerated on the way to it. -/
structure Decoded where
  crate : Crate
  /-- Broken entries of the index by identifier, then dangling references by referrer. -/
  diagnostics : List DecodeError

namespace Decode

def version {v : Json} (r : Record v) : Except DecodeError UInt32 := do
  let value ← r.required "format_version"
  match value.val with
  | .num (.integer number) =>
    if number = Crate.supportedVersion.toNat then return Crate.supportedVersion
    else .error (.unsupportedVersion number)
  | other => .error (.fault ((Fault.mismatch .integer other).within (.key "format_version")))

/-- The fields that have to be there before any is looked into. -/
def requiredFields : List String :=
  ["root", "includes_private", "index", "paths", "external_crates"]

/-- The first required field that is missing is a fault. -/
def presence {v : Json} (r : Record v) : Reading Unit :=
  requiredFields.forM fun field => do
    let _ ← r.required field

/-- One entry of the index. The item has to bear the identifier under which it stands. -/
def entry (key : String) (v : Json) : Except DecodeError Item := do
  let r ← v.asRecord
  let id ← r.id "id"
  if id.text = key then Item.ofRecord id r
  else .error (.keyMismatch ⟨key⟩ id)

def entries {v : Json} (r : Record v) : Reading (List (Except DecodeError Item)) := do
  let index ← r.field "index" fun index => return (← index.val.asRecord).members
  return index.map fun (key, value) =>
    (entry key value).mapError fun error => (error.within (.key key)).within (.key "index")

def kept (results : List (Except DecodeError Item)) : List Item :=
  results.filterMap fun
    | .ok item => some item
    | .error _ => none

def dropped (results : List (Except DecodeError Item)) : List DecodeError :=
  results.filterMap fun
    | .ok _ => none
    | .error error => some error

def indexOf (items : List Item) : Table ItemId Item :=
  .ofEntries (items.map fun item => (item.id, item))

end Decode

open Decode in
def decode (mode : Mode) (document : Json) : Except DecodeError Decoded := do
  let r ← document.asRecord
  let formatVersion ← version r
  presence r
  let root ← r.id "root"
  let includesPrivate ← r.bool "includes_private"
  let version ← r.string? "crate_version"
  let externalCrates ← r.entries "external_crates" (ExternalCrate.readEntry · ·)
  let results ← entries r
  mode.tolerate (dropped results)
  let paths ← r.entries "paths" (ItemSummary.readEntry · ·)
  let crate : Crate := {
    root, version, includesPrivate, formatVersion
    index := indexOf (kept results)
    paths := .ofEntries paths
    externalCrates := .ofEntries externalCrates }
  let dangling := crate.danglingReferences
  mode.tolerate dangling
  crate.checkRoot
  return ⟨crate, dropped results ++ dangling⟩

def decodeText (mode : Mode) (text : String) : Except DecodeError Decoded :=
  match Json.ofText? text with
  | some document => decode mode document
  | none => .error .malformed

def decodeBytes (mode : Mode) (bytes : ByteArray) : Except DecodeError Decoded :=
  match Json.ofBytes? bytes with
  | some document => decode mode document
  | none => .error .malformed

end CrateDocs
