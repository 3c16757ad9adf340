/-!
# Token permissions

What the token of a run may do: read everything, write everything, or a level for each
scope named.  Granting a scope names it once, in the order of the scopes.
-/

namespace ActionsWorkflow

inductive PermissionLevel where
  | read
  | write
  | denied
  deriving DecidableEq, Repr

namespace PermissionLevel

def all : List PermissionLevel := [.read, .write, .denied]

def name : PermissionLevel → String
  | .read => "read"
  | .write => "write"
  | .denied => "none"

end PermissionLevel

inductive PermissionScope where
  | actions
  | attestations
  | checks
  | contents
  | deployments
  | discussions
  | idToken
  | issues
  | packages
  | pages
  | pullRequests
  | repositoryProjects
  | securityEvents
  | statuses
  deriving DecidableEq, Repr

namespace PermissionScope

def all : List PermissionScope :=
  [.actions, .attestations, .checks, .contents, .deployments, .discussions, .idToken, .issues,
    .packages, .pages, .pullRequests, .repositoryProjects, .securityEvents, .statuses]

def name : PermissionScope → String
  | .actions => "actions"
  | .attestations => "attestations"
  | .checks => "checks"
  | .contents => "contents"
  | .deployments => "deployments"
  | .discussions => "discussions"
  | .idToken => "id-token"
  | .issues => "issues"
  | .packages => "packages"
  | .pages => "pages"
  | .pullRequests => "pull-requests"
  | .repositoryProjects => "repository-projects"
  | .securityEvents => "security-events"
  | .statuses => "statuses"

def rank (scope : PermissionScope) : Nat := all.idxOf scope

theorem mem_all (scope : PermissionScope) : scope ∈ all := by
  cases scope <;> decide

end PermissionScope

abbrev Grant := PermissionScope × PermissionLevel

inductive Permissions where
  | readAll
  | writeAll
  | scoped (grants : List Grant)
  deriving DecidableEq, Repr

namespace Permissions

def insertByRank (grant : Grant) : List Grant → List Grant
  | [] => [grant]
  | other :: rest =>
      if grant.1.rank ≤ other.1.rank then grant :: other :: rest
      else other :: insertByRank grant rest

/-- In the order of the scopes; grants of one scope keep their order. -/
def sortByRank : List Grant → List Grant
  | [] => []
  | grant :: rest => insertByRank grant (sortByRank rest)

def grants : Permissions → List Grant
  | .scoped grants => grants
  | _ => []

/-- Give one scope a level; what an unscoped form allowed is gone. -/
def grant (permissions : Permissions) (scope : PermissionScope) (level : PermissionLevel) :
    Permissions :=
  let others := permissions.grants.filter fun entry => entry.1 ≠ scope
  .scoped (sortByRank (others ++ [(scope, level)]))

end Permissions

end ActionsWorkflow
