import WireSchema.Artifact
import WireSchema.Emit.HostClass
import WireSchema.Registry
import WireSchema.Text.Hex

/-!
# Headers for a whole schema

The enumerations of message types and of addresses, and the hand-written headers that both trees
take over. The host copies stand in the namespace of the host tree.
-/

namespace WireSchema.Emit

/-- The file of the hand-written enumerations. -/
def sharedEnumsHeader : String := "msg_enums.h"

/-- The file of the hand-written types. -/
def commonTypesHeader : String := "common_types.h"

/-- The include guard of a header of one tree. -/
def treeGuard (names : OutputNames) (rep : Representation) (name : String) : String :=
  match rep with
  | .host => Naming.headerGuard s!"{names.spaceName}_{name}"
  | .embedded => Naming.headerGuard name

/-- Lines in the namespace of the tree, if it has one. -/
def inTree (names : OutputNames) (rep : Representation) (body : Lines) : Lines :=
  match rep with
  | .host => [openNamespace names, ""] ++ body ++ [closeNamespace names, ""]
  | .embedded => body

/-- Where a header of a tree lies. -/
def treeHeader (rep : Representation) (file : String) : Path :=
  match rep with
  | .host => ⟨file⟩
  | .embedded => ⟨s!"inc/{file}"⟩

/-! ## Message types -/

/-- The enumerators of message types. -/
def typeTags (r : Registry) : List String := r.typeNames.map Naming.enumTag

def typeEnumeration (names : OutputNames) (r : Registry) : Lines :=
  [s!"enum {names.typeEnum}"] ++ blockThen ";" ((typeTags r).map fun tag => s!"\t{tag},")

def typeNameTable (names : OutputNames) (rep : Representation) (r : Registry) : Lines :=
  let head :=
    match rep with
    | .host => s!"static const std::vector<std::string> {names.typeEnum}Str ="
    | .embedded => s!"static const char* const {names.typeEnum}Str[] ="
  [head] ++ blockThen ";" (r.typeNames.map fun name => s!"\t\"{name}\",")

def typeHeader (names : OutputNames) (rep : Representation) (r : Registry) : Lines :=
  let name := names.typeEnum
  preamble names s!"{name}.h" .block ++
    guarded (treeGuard names rep name) (
      (match rep with
        | .host => ["#include <vector>", "#include <string>", ""]
        | .embedded => ["#include <stdint.h>", ""]) ++
      inTree names rep (
        typeEnumeration names r ++ [s!"typedef enum {name} {name}_t;", ""] ++
        typeNameTable names rep r ++ [""]))

/-! ## Addresses -/

/-- A number as C writes it in hexadecimal. -/
def hexLiteral (n : Nat) : String := "0x" ++ Text.hex n

/-- The enumerators of domains and their values. -/
def domainTags (m : AddressMap) : List (String × Nat) :=
  m.domains.map fun d => (Naming.enumTag d.name, d.value)

/-- The enumerators of addresses and their values. -/
def addressTags (m : AddressMap) : List (String × Nat) :=
  m.entries.map fun e => (Naming.enumTag e.name, e.address)

/-- The line of an enumerator with its value. -/
def enumerator (tag : String × Nat) : String := s!"\t{tag.1} = {hexLiteral tag.2},"

def addressRow (e : AddressEntry) : String :=
  s!"\t\x7b{hexLiteral e.address}, \"{Naming.enumTag e.name}\"\x7d,"

/-- The enumeration of domains. C has no empty enumerations. -/
def domainEnumeration (name : String) (m : AddressMap) : Lines :=
  if m.domains.isEmpty then []
  else [s!"enum {name}Domain"] ++
    blockThen ";" ((domainTags m).map enumerator) ++ [""]

/-- The enumeration of addresses. C has no empty enumerations. -/
def addressEnumeration (name : String) (m : AddressMap) : Lines :=
  if m.entries.isEmpty then []
  else [s!"enum {name}"] ++
    blockThen ";" ((addressTags m).map enumerator) ++
    [s!"typedef enum {name} {name}_t;", ""]

/-- The table of the names of addresses. C has no empty initialisers. -/
def addressTable (name : String) (rep : Representation) (m : AddressMap) : Lines :=
  let upper := String.ofList (name.toList.map Char.toUpper)
  let rows := blockThen ";" (m.entries.map addressRow) ++ [""]
  match rep with
  | .host => [s!"static const std::map<uint32_t, std::string> {name}Str ="] ++ rows
  | .embedded =>
    ["typedef struct"] ++
      blockThen s!"{name}Str_t;" ["\tuint32_t address;", "\tconst char* name;"] ++
      ["", s!"#define {upper}_STR_COUNT ({m.entries.length})", ""] ++
      (if m.entries.isEmpty then [] else [s!"static const {name}Str_t {name}Str[] ="] ++ rows)

def addressHeader (names : OutputNames) (rep : Representation) (m : AddressMap) : Lines :=
  let name := names.addressEnum
  preamble names s!"{name}.h" .block ++
    guarded (treeGuard names rep name) (
      (match rep with
        | .host => ["#include <cstdint>", "#include <map>", "#include <string>", ""]
        | .embedded => ["#include <stdint.h>", ""]) ++
      inTree names rep (
        domainEnumeration name m ++ addressEnumeration name m ++ addressTable name rep m))

/-! ## Hand-written headers -/

/-- The contents of hand-written files that the trees take over. -/
structure Supplements where
  sharedEnums : Option String := none
  commonTypes : Option String := none
  /-- Stream operators of the common types, for the host tree only. -/
  commonStream : Option String := none
deriving Repr, DecidableEq

/-- Hand-written text without white space at its end, and an empty line behind it. -/
def verbatim (text : String) : Lines := [Text.trimEnd text, ""]

/-- The header of shared enumerations. -/
def sharedEnums (names : OutputNames) (rep : Representation) (contents : String) : Lines :=
  preamble names sharedEnumsHeader .block ++
    guarded (treeGuard names rep "msg_enums") (inTree names rep (verbatim contents))

def commonTypes (names : OutputNames) (rep : Representation) (types : String)
    (stream : Option String) : Lines :=
  let includes :=
    match rep, stream with
    | .host, some _ => ["#include <cstdint>", includeLine hostBaseHeader]
    | .host, none => ["#include <cstdint>"]
    | .embedded, _ => ["#include <stdint.h>"]
  let operators :=
    match rep, stream with
    | .host, some text => verbatim text
    | _, _ => []
  preamble names commonTypesHeader .block ++
    guarded (treeGuard names rep "common_types") (
      includes ++ [""] ++ inTree names rep (verbatim types ++ operators))

/-! ## Artifacts -/

/-- A header in both trees, the host tree first. -/
def inBothTrees (file : String) (lines : Representation → Lines) : List Artifact :=
  [⟨.host, treeHeader .host file, render (lines .host)⟩,
   ⟨.embedded, treeHeader .embedded file, render (lines .embedded)⟩]

/-- The enumeration headers of both trees. -/
def enumerationArtifacts (names : OutputNames) (r : Registry) : List Artifact :=
  inBothTrees s!"{names.typeEnum}.h" (typeHeader names · r) ++
    inBothTrees s!"{names.addressEnum}.h" (addressHeader names · r.addresses)

/-- The hand-written headers in both trees. -/
def supplementArtifacts (names : OutputNames) (s : Supplements) : List Artifact :=
  (match s.sharedEnums with
    | some contents => inBothTrees sharedEnumsHeader (sharedEnums names · contents)
    | none => []) ++
  (match s.commonTypes with
    | some types => inBothTrees commonTypesHeader (commonTypes names · types s.commonStream)
    | none => [])

end WireSchema.Emit
