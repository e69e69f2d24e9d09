import JavaProfile.Json.Value
import JavaProfile.Labelled

/-!
The tools that are offered to a client, with the arguments that each takes.
-/

namespace JavaProfile.Tool

def serverName : String := "stackprint"

def version : String := "0.1.0"

inductive Name where
  | detectProfile
  | manageCache
  deriving DecidableEq, Repr

instance : Labelled Name where
  all := [.detectProfile, .manageCache]
  label
    | .detectProfile => "detect_profile"
    | .manageCache => "manage_profile_cache"

structure Parameter where
  name : String
  kind : String
  description : String
  values : List String := []
  default : Option Bool := none
  required : Bool := false

namespace Parameter

def toJson (p : Parameter) : Json :=
  let kind : Json.Fields := [("type", .string p.kind)]
  let values : Json.Fields := if p.values = [] then [] else [("enum", .strings p.values)]
  let description : Json.Fields := [("description", .string p.description)]
  let default : Json.Fields := p.default.toList.map fun b => ("default", .bool b)
  .object (kind ++ values ++ description ++ default)

end Parameter

def Name.description : Name → String
  | detectProfile =>
    "Detect the conventions of a Java/Spring project: architecture style and confidence, " ++
    "base package, DTO naming, ID type, mapper, Lombok usage, validation, API docs style, " ++
    "persistence technology and test setup. Uses the cached profile when it is still valid. " ++
    "After creating or moving many files, call with refresh=true."
  | manageCache =>
    "Manage the cached stackprint profile of a project. " ++
    "Modes: info (show cache state and freshness), " ++
    "clear (delete the cache directory)."

def Name.parameters : Name → List Parameter
  | detectProfile =>
    [{ name := "project_path", kind := "string", required := true,
       description :=
         "Absolute path to the project root (the directory holding src/main/java)" },
     { name := "refresh", kind := "boolean", default := some false,
       description := "Ignore the cached profile and detect again" },
     { name := "use_cache", kind := "boolean", default := some true,
       description := "Read and write the profile cache under <project>/.stackprint/" },
     { name := "include_scores", kind := "boolean", default := some false,
       description :=
         "Include the score of every architecture style. Scores come from " ++
         "the current sources, so with a cached or locked profile they can " ++
         "disagree with the reported architecture" }]
  | manageCache =>
    [{ name := "mode", kind := "string", values := ["info", "clear"], required := true,
       description := "Cache management mode" },
     { name := "project_path", kind := "string", required := true,
       description := "Absolute path to the project root" }]

def Name.inputSchema (n : Name) : Json :=
  .object
    [("type", .string "object"),
     ("properties", .object (n.parameters.map fun p => (p.name, p.toJson))),
     ("required", .strings ((n.parameters.filter (·.required)).map (·.name)))]

def Name.toJson (n : Name) : Json :=
  .object
    [("name", .string (label n)), ("description", .string n.description),
     ("inputSchema", n.inputSchema)]

def catalogue : Json :=
  .object
    [("server", .string serverName), ("version", .string version),
     ("tools", .array ((Labelled.all : List Name).map Name.toJson))]

end JavaProfile.Tool
