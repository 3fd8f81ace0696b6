import ImportAtlas.Checkout.Store
import ImportAtlas.Command.Arguments

/-!
# Places a run looks at

Which paths of a host a command line has to do with: the files that may hold its configuration, and
the file or folder that its task is about.
-/

namespace ImportAtlas.Command

def Task.place? (config : Config) : Task → Option String
  | .graph _ _ _ (some root) _ _ _ _ _ => some root
  | .graph owner repo _ none _ _ _ _ _ => (Checkout.localPath config.reposDir owner repo).toOption
  | .imports file _ _ => some file
  | .clone url _ => do
    let (owner, name) ← Identity.ofGithubUrl? url
    (Checkout.localPath config.reposDir owner name).toOption
  | .serve _ _ | .config => none

/-- The files that may hold the configuration of a run. -/
def Invocation.configPlaces (env : Environment) (i : Invocation) : List String :=
  match i.config with
  | some path => [path]
  | none => Config.lookupOrder env

end ImportAtlas.Command
