/-
  Whose indexes they are.

  The account comes from the options or the environment; a client is given, or built from a
  token that comes from them.
-/
import VectorStore.Store.Config

namespace VectorStore.Vectorize

/-- Whose indexes they are, and what a client is built from, none if one is given. -/
structure Account where
  id : Value
  clientOptions : Option Fields

/-- The failure to find an account. -/
def noAccount : StoreError :=
  .of .validation
    "CloudflareVectorStore needs an account_id or CLOUDFLARE_ACCOUNT_ID in the environment"

/-- The failure to find a token. -/
def noToken : StoreError :=
  .of .validation
    "CloudflareVectorStore needs a client, an api_token, or CLOUDFLARE_API_TOKEN in the environment"

/-- The account of the given options. -/
def Account.ofOptions (options : Fields) (env : Config.Environment) : Except StoreError Account :=
  let option (name : String) := Fields.orNull options name
  let id := (option "account_id").orElse (Config.setting env "CLOUDFLARE_ACCOUNT_ID")
  let token := (option "api_token").orElse (Config.setting env "CLOUDFLARE_API_TOKEN")
  if id.isVoid then .error noAccount
  else if !(option "client").isNull then .ok ⟨id, none⟩
  else if token.isVoid then .error noToken
  else .ok ⟨id, some [("api_token", token)]⟩

end VectorStore.Vectorize
