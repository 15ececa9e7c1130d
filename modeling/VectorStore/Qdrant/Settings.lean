/-
  Where the service is.

  A client is given, or built from options; what the options leave out comes from the
  environment.
-/
import VectorStore.Store.Config
import VectorStore.Value.Coercion

namespace VectorStore.Qdrant

/-- Where the service is when nothing is said. -/
def defaultUrl : String := "http://localhost:6333"

/-- What a client is built from, none if one is given. -/
def clientOptions (options : Fields) (env : Config.Environment) : Except Fault (Option Fields) := do
  let option (name : String) := Fields.orNull options name
  if !(option "client").isNull then return none
  let url := ((option "url").orElse (Config.setting env "QDRANT_URL")).orElse (.text defaultUrl)
  let key := (option "api_key").orElse (Config.setting env "QDRANT_API_KEY")
  let keyField := if key.isVoid then [] else [("api_key", key)]
  let timeout := option "timeout"
  let seconds ← if timeout.isNull then .ok none else timeout.toInt.map some
  let timeoutField := (seconds.map fun n => ("timeout", Value.int n)).toList
  return some (("url", url) :: (keyField ++ timeoutField))

end VectorStore.Qdrant
