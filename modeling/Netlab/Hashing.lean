import Netlab.Prelude.Json

/-!
# Component hashes

`component_hashes` of `netlab/hashing.py`: the hash of a whole configuration and those of its
sections. The digest of one value, `sha256_value`, is a parameter; it raises on values that have no
canonical JSON text, such as one that holds a NaN.
-/

namespace Netlab.Hashing

variable {F : Type}

/-- The section keys of `component_hashes`. -/
def sectionKeys : List String :=
  ["topology", "swarm", "antennas", "world", "traffic", "failures"]

/-- The name under which the loop stores the hash of a section. -/
def hashName (key : String) : String :=
  if key = "failures" then "failure_hash" else key ++ "_hash"

/-- The stable names that the loop is followed by, with their sections. -/
def stableNames : List (String × String) :=
  [("topology_hash", "topology"), ("swarm_hash", "swarm"), ("antenna_hash", "antennas"),
    ("world_hash", "world"), ("traffic_hash", "traffic"), ("failure_hash", "failures")]

/-- `component_hashes`. -/
def componentHashes (sha256Value : Json F → Option String) (config : Json F) :
    Option (Dict String String) := do
  let whole ← sha256Value config
  let sections ← config.dict?
  let named := sectionKeys.map (fun key => (hashName key, key)) ++ stableNames
  let hashes ← named.mapM fun (name, key) => do
    return (name, ← sha256Value ((sections.get? key).getD (.obj [])))
  return .ofList (("config_hash", whole) :: hashes)

end Netlab.Hashing
