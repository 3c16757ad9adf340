/-!
# Events

The repository events without filters of their own, and the activities of a pull request.
-/

namespace ActionsWorkflow

inductive Event where
  | branchProtectionRule
  | checkRun
  | checkSuite
  | create
  | delete
  | deployment
  | deploymentStatus
  | discussion
  | discussionComment
  | fork
  | gollum
  | issueComment
  | issues
  | label
  | member
  | mergeGroup
  | milestone
  | pageBuild
  | project
  | projectCard
  | projectColumn
  | «public»
  | pullRequestReview
  | pullRequestReviewComment
  | registryPackage
  | release
  | repositoryDispatch
  | status
  | watch
  | workflowRun
  deriving DecidableEq, Repr

namespace Event

def all : List Event :=
  [.branchProtectionRule, .checkRun, .checkSuite, .create, .delete, .deployment,
    .deploymentStatus, .discussion, .discussionComment, .fork, .gollum, .issueComment, .issues,
    .label, .member, .mergeGroup, .milestone, .pageBuild, .project, .projectCard,
    .projectColumn, .public, .pullRequestReview, .pullRequestReviewComment, .registryPackage,
    .release, .repositoryDispatch, .status, .watch, .workflowRun]

def name : Event → String
  | .branchProtectionRule => "branch_protection_rule"
  | .checkRun => "check_run"
  | .checkSuite => "check_suite"
  | .create => "create"
  | .delete => "delete"
  | .deployment => "deployment"
  | .deploymentStatus => "deployment_status"
  | .discussion => "discussion"
  | .discussionComment => "discussion_comment"
  | .fork => "fork"
  | .gollum => "gollum"
  | .issueComment => "issue_comment"
  | .issues => "issues"
  | .label => "label"
  | .member => "member"
  | .mergeGroup => "merge_group"
  | .milestone => "milestone"
  | .pageBuild => "page_build"
  | .project => "project"
  | .projectCard => "project_card"
  | .projectColumn => "project_column"
  | .public => "public"
  | .pullRequestReview => "pull_request_review"
  | .pullRequestReviewComment => "pull_request_review_comment"
  | .registryPackage => "registry_package"
  | .release => "release"
  | .repositoryDispatch => "repository_dispatch"
  | .status => "status"
  | .watch => "watch"
  | .workflowRun => "workflow_run"

theorem mem_all (event : Event) : event ∈ all := by
  cases event <;> decide

end Event

inductive PullRequestActivity where
  | assigned
  | unassigned
  | labeled
  | unlabeled
  | opened
  | edited
  | closed
  | reopened
  | synchronize
  | convertedToDraft
  | readyForReview
  | locked
  | unlocked
  | reviewRequested
  | reviewRequestRemoved
  | autoMergeEnabled
  | autoMergeDisabled
  deriving DecidableEq, Repr

namespace PullRequestActivity

def all : List PullRequestActivity :=
  [.assigned, .unassigned, .labeled, .unlabeled, .opened, .edited, .closed, .reopened,
    .synchronize, .convertedToDraft, .readyForReview, .locked, .unlocked, .reviewRequested,
    .reviewRequestRemoved, .autoMergeEnabled, .autoMergeDisabled]

def name : PullRequestActivity → String
  | .assigned => "assigned"
  | .unassigned => "unassigned"
  | .labeled => "labeled"
  | .unlabeled => "unlabeled"
  | .opened => "opened"
  | .edited => "edited"
  | .closed => "closed"
  | .reopened => "reopened"
  | .synchronize => "synchronize"
  | .convertedToDraft => "converted_to_draft"
  | .readyForReview => "ready_for_review"
  | .locked => "locked"
  | .unlocked => "unlocked"
  | .reviewRequested => "review_requested"
  | .reviewRequestRemoved => "review_request_removed"
  | .autoMergeEnabled => "auto_merge_enabled"
  | .autoMergeDisabled => "auto_merge_disabled"

end PullRequestActivity

end ActionsWorkflow
