import WireSchema.Artifact
import WireSchema.Emit.Lines
import WireSchema.Registry

/-!
# Build descriptions

CMake files that list the emitted sources: one library for each host interface, the host tree as a
whole, and one list for the embedded tree.
-/

namespace WireSchema.Emit

/-- A reference to a CMake variable. -/
def cmakeRef (name : String) : String := "$\x7b" ++ name ++ "\x7d"

/-- The line that makes the current directory and the one above it visible to users of a library. -/
def includeDirectories (library : String) : String :=
  let here := cmakeRef "CMAKE_CURRENT_SOURCE_DIR"
  s!"target_include_directories({library} PUBLIC {here} {here}/..)"

/-! ## Host -/

/-- The source of a message within the directory of its interface. -/
def hostSource (name : String) : String := s!"src/{name}.cpp"

/-- The build file of a host interface. -/
def interfaceBuild (names : OutputNames) (i : Interface) : Lines :=
  preamble names "CMakeLists.txt" .hash ++
    ["set(SOURCES"] ++ i.messages.map (fun name => s!"\t\"{hostSource name}\"") ++
    [")", "",
      s!"add_library({i.name} " ++ cmakeRef "SOURCES" ++ ")",
      includeDirectories i.name,
      s!"target_link_libraries({i.name} MsgBase)"]

/-- The build file of the host tree. -/
def hostBuild (names : OutputNames) (r : Registry) : Lines :=
  preamble names "CMakeLists.txt" .hash ++
    (r.interfacesFor .host).map (fun i => s!"add_subdirectory({i.name})") ++
    ["add_subdirectory(Parser)"]

def hostParserBuild (names : OutputNames) (r : Registry) : Lines :=
  preamble names "CMakeLists.txt" .hash ++
    ["add_library(Parser src/Parser.cpp)", includeDirectories "Parser",
      "target_link_libraries(Parser"] ++
    (r.interfacesFor .host).map (fun i => s!"\t{i.name}") ++ [")"]

/-! ## Embedded -/

/-- The variable that lists the sources of an embedded interface. -/
def sourcesVariable (i : Interface) : String := s!"MSG_{Naming.foldUpper i.name}_SOURCES"

/-- A source of the embedded tree, from anywhere. -/
def embeddedSource (file : String) : String := cmakeRef "CMAKE_CURRENT_LIST_DIR" ++ s!"/src/{file}"

/-- The list of the sources of an embedded interface. -/
def interfaceSources (i : Interface) : Lines :=
  [s!"set({sourcesVariable i}"] ++
    i.messages.map (fun name => "\t" ++ embeddedSource s!"{name}.c") ++ [")", ""]

/-- The build list of the embedded tree. -/
def embeddedBuild (names : OutputNames) (r : Registry) : Lines :=
  let interfaces := r.interfacesFor .embedded
  preamble names "messages.cmake" .hash ++
    interfaces.flatMap interfaceSources ++
    ["set(MSG_SOURCES"] ++ interfaces.map (fun i => "\t" ++ cmakeRef (sourcesVariable i)) ++
    ["\t" ++ embeddedSource "Msg_Parser.c", ")", "",
      "set(MSG_INCLUDE_DIRS " ++ cmakeRef "CMAKE_CURRENT_LIST_DIR" ++ "/inc)"]

/-! ## Artifacts -/

/-- The build files of both trees. -/
def buildArtifacts (names : OutputNames) (r : Registry) : List Artifact :=
  (r.interfacesFor .host).map (fun i =>
    ⟨.host, Path.join ⟨i.name⟩ ⟨"CMakeLists.txt"⟩, render (interfaceBuild names i)⟩) ++
  [⟨.host, ⟨"CMakeLists.txt"⟩, render (hostBuild names r)⟩,
   ⟨.host, ⟨"Parser/CMakeLists.txt"⟩, render (hostParserBuild names r)⟩,
   ⟨.embedded, ⟨"messages.cmake"⟩, render (embeddedBuild names r)⟩]

end WireSchema.Emit
