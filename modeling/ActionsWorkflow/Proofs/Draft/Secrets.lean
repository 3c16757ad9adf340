import ActionsWorkflow.Proofs.Draft.Jobs
import ActionsWorkflow.Proofs.Table.History

/-!
# Secrets of a drafted call

Inheriting secrets forgets those named before, and naming one gives inheritance up.  So what
a call hands on is told by the last edit that inherits and the secrets named after it, and
no other edit has a part in it.
-/

namespace ActionsWorkflow

namespace CallEdit

def inherits : CallEdit → Bool
  | .inheritSecrets => true
  | _ => false

def secret? : CallEdit → Option (String × String)
  | .secret name value => some (name, value)
  | _ => none

def onSecrets (edit : CallEdit) : Bool := edit.inherits || edit.secret?.isSome

/-- The secrets after one edit. -/
def nextSecrets (secrets : Option Secrets) : CallEdit → Option Secrets
  | .inheritSecrets => some .inherit
  | .secret name value =>
      some (.named (((Secrets.table? secrets).getD .empty).insert name value))
  | _ => secrets

theorem nextSecrets_of_not_onSecrets {edit : CallEdit} (h : edit.onSecrets = false)
    (secrets : Option Secrets) : edit.nextSecrets secrets = secrets := by
  cases edit with
  | inheritSecrets => cases h
  | secret => cases h
  | _ => rfl

theorem onSecrets_eq_false_or {edit : CallEdit} (h : edit.inherits = false) :
    edit.onSecrets = false ∧ edit.secret? = none ∨
      ∃ name value, edit = .secret name value := by
  cases edit with
  | inheritSecrets => cases h
  | secret name value => exact .inr ⟨name, value, rfl⟩
  | _ => exact .inl ⟨rfl, rfl⟩

end CallEdit

def followSecrets (secrets : Option Secrets) (edits : List CallEdit) : Option Secrets :=
  edits.foldl CallEdit.nextSecrets secrets

section Follow

variable {edits : List CallEdit}

theorem followSecrets_append (secrets : Option Secrets) (edits more : List CallEdit) :
    followSecrets secrets (edits ++ more) =
      followSecrets (followSecrets secrets edits) more :=
  List.foldl_append

theorem followSecrets_untouched (h : ∀ edit ∈ edits, edit.onSecrets = false)
    (secrets : Option Secrets) : followSecrets secrets edits = secrets := by
  induction edits with
  | nil => rfl
  | cons edit rest ih =>
      rw [List.forall_mem_cons] at h
      change followSecrets (edit.nextSecrets secrets) rest = secrets
      rw [CallEdit.nextSecrets_of_not_onSecrets h.1]
      exact ih h.2

theorem followSecrets_filter (secrets : Option Secrets) (edits : List CallEdit) :
    followSecrets secrets (edits.filter CallEdit.onSecrets) = followSecrets secrets edits := by
  induction edits generalizing secrets with
  | nil => rfl
  | cons edit rest ih =>
      change _ = followSecrets (edit.nextSecrets secrets) rest
      cases h : edit.onSecrets with
      | false =>
          rw [List.filter_cons_of_neg (by simp [h]), ih,
            CallEdit.nextSecrets_of_not_onSecrets h]
      | true =>
          rw [List.filter_cons_of_pos h, ← ih]
          rfl

theorem untouched_of_named_eq_nil (hkept : ∀ edit ∈ edits, edit.inherits = false)
    (h : edits.filterMap CallEdit.secret? = []) : ∀ edit ∈ edits, edit.onSecrets = false := by
  rw [List.filterMap_eq_nil_iff] at h
  intro edit hedit
  rw [CallEdit.onSecrets, hkept edit hedit, h edit hedit]
  rfl

theorem followSecrets_named (secrets : Option Secrets)
    (hkept : ∀ edit ∈ edits, edit.inherits = false)
    (h : edits.filterMap CallEdit.secret? ≠ []) :
    followSecrets secrets edits = some (.named
      (((Secrets.table? secrets).getD .empty).insertAll
        (edits.filterMap CallEdit.secret?))) := by
  induction edits generalizing secrets with
  | nil => exact absurd rfl h
  | cons edit rest ih =>
      rw [List.forall_mem_cons] at hkept
      change followSecrets (edit.nextSecrets secrets) rest = _
      rcases CallEdit.onSecrets_eq_false_or hkept.1 with ⟨hsilent, hnone⟩ | ⟨name, value, rfl⟩
      · rw [List.filterMap_cons_none hnone] at h ⊢
        rw [CallEdit.nextSecrets_of_not_onSecrets hsilent]
        exact ih secrets hkept.2 h
      · have hgiven : (CallEdit.secret name value).secret? = some (name, value) := rfl
        rw [List.filterMap_cons_some hgiven]
        by_cases hrest : rest.filterMap CallEdit.secret? = []
        · rw [hrest, followSecrets_untouched (untouched_of_named_eq_nil hkept.2 hrest)]
          rfl
        · exact ih _ hkept.2 hrest

end Follow

/-! ## Secrets after a sequence of edits -/

/-- No edit, or edits of which the last one inherits. -/
def FreshStart (edits : List CallEdit) : Prop :=
  edits = [] ∨ ∃ front, edits = front ++ [.inheritSecrets]

/-- What a sequence of edits makes of the secrets. -/
inductive SecretsAfter : List CallEdit → Option Secrets → Prop
  | untouched {edits : List CallEdit} (silent : ∀ edit ∈ edits, edit.onSecrets = false) :
      SecretsAfter edits none
  | inherited {before after : List CallEdit}
      (silent : ∀ edit ∈ after, edit.onSecrets = false) :
      SecretsAfter (before ++ .inheritSecrets :: after) (some .inherit)
  | named {before after : List CallEdit} (start : FreshStart before)
      (kept : ∀ edit ∈ after, edit.inherits = false)
      (anyNamed : after.filterMap CallEdit.secret? ≠ []) :
      SecretsAfter (before ++ after)
        (some (.named (Table.ofList (after.filterMap CallEdit.secret?))))

theorem FreshStart.table?_eq_none {edits : List CallEdit} (h : FreshStart edits) :
    Secrets.table? (followSecrets none edits) = none := by
  rcases h with rfl | ⟨front, rfl⟩
  · rfl
  · rw [followSecrets_append]
    rfl

theorem exists_freshStart_append (edits : List CallEdit) :
    ∃ before after, edits = before ++ after ∧ FreshStart before ∧
      ∀ edit ∈ after, edit.inherits = false := by
  induction edits using List.reverseRecOn with
  | nil => exact ⟨[], [], rfl, .inl rfl, fun _ h => absurd h List.not_mem_nil⟩
  | append_singleton edits edit ih =>
      by_cases h : edit = .inheritSecrets
      · subst h
        exact ⟨edits ++ [.inheritSecrets], [], (List.append_nil _).symm, .inr ⟨edits, rfl⟩,
          fun _ h => absurd h List.not_mem_nil⟩
      · obtain ⟨before, after, rfl, hstart, hkept⟩ := ih
        refine ⟨before, after ++ [edit], List.append_assoc _ _ _, hstart, ?_⟩
        have hedit : edit.inherits = false := by
          cases edit with
          | inheritSecrets => exact absurd rfl h
          | _ => rfl
        simpa only [List.forall_mem_append, List.forall_mem_singleton] using ⟨hkept, hedit⟩

theorem exists_secretsAfter (edits : List CallEdit) : ∃ secrets, SecretsAfter edits secrets := by
  obtain ⟨before, after, rfl, hstart, hkept⟩ := exists_freshStart_append edits
  by_cases hnamed : after.filterMap CallEdit.secret? = []
  · have hsilent := untouched_of_named_eq_nil hkept hnamed
    rcases hstart with rfl | ⟨front, rfl⟩
    · exact ⟨none, .untouched hsilent⟩
    · rw [List.append_assoc]
      exact ⟨some .inherit, .inherited hsilent⟩
  · exact ⟨_, .named hstart hkept hnamed⟩

theorem SecretsAfter.followSecrets_eq {edits : List CallEdit} {secrets : Option Secrets}
    (h : SecretsAfter edits secrets) : followSecrets none edits = secrets := by
  cases h with
  | untouched silent => exact followSecrets_untouched silent none
  | inherited silent =>
      rw [followSecrets_append]
      exact followSecrets_untouched silent (some .inherit)
  | named start kept anyNamed =>
      rw [followSecrets_append, followSecrets_named _ kept anyNamed, start.table?_eq_none,
        Table.ofList_eq_insertAll]
      rfl

theorem followSecrets_eq_iff {edits : List CallEdit} {secrets : Option Secrets} :
    followSecrets none edits = secrets ↔ SecretsAfter edits secrets := by
  constructor
  · rintro rfl
    obtain ⟨secrets, hsecrets⟩ := exists_secretsAfter edits
    rwa [hsecrets.followSecrets_eq]
  · exact SecretsAfter.followSecrets_eq

namespace CallDraft

theorem secrets_apply (draft : CallDraft) (edit : CallEdit) :
    (draft.apply edit).secrets = edit.nextSecrets draft.secrets := by
  cases edit <;> rfl

theorem secrets_ofEdits (edits : List CallEdit) :
    (ofEdits edits).secrets = followSecrets none edits :=
  (List.foldl_hom (fun draft : CallDraft => draft.secrets)
    fun draft edit => (draft.secrets_apply edit).symm).symm

theorem secrets_of_finish {draft : CallDraft} {job : CallJob} (h : draft.finish = .ok job) :
    job.secrets = draft.secrets := by
  obtain ⟨-, uses, -, rfl⟩ := finish_eq_ok h
  rfl

/-- A finished call hands on no secrets if no edit was about them, all of the caller's if the
last such edit inherits, and otherwise those named since, as a table that keeps the order in
which the names first came and the value that each was given last.  Two sequences with the
same edits about secrets hand on the same. -/
theorem finish_secrets {edits : List CallEdit} {job : CallJob}
    (h : (ofEdits edits).finish = .ok job) :
    (∀ secrets, job.secrets = secrets ↔ SecretsAfter edits secrets) ∧
    (∀ table, job.secrets = some (.named table) →
      ∃ before after, edits = before ++ after ∧ FreshStart before ∧
        (∀ edit ∈ after, edit.inherits = false) ∧
        table.Records (after.filterMap CallEdit.secret?)) ∧
    ∀ others other, (ofEdits others).finish = .ok other →
      others.filter CallEdit.onSecrets = edits.filter CallEdit.onSecrets →
        other.secrets = job.secrets := by
  have hjob : job.secrets = followSecrets none edits := by
    rw [secrets_of_finish h, secrets_ofEdits]
  refine ⟨fun secrets => ?_, ?_, ?_⟩
  · rw [hjob, followSecrets_eq_iff]
  · intro table htable
    rw [hjob, followSecrets_eq_iff] at htable
    cases htable with
    | named start kept => exact ⟨_, _, rfl, start, kept, .ofList _⟩
  · intro others other hother hsame
    rw [secrets_of_finish hother, secrets_ofEdits, hjob, ← followSecrets_filter none others,
      hsame, followSecrets_filter]

def releaseWorkflow : String := "./.github/workflows/release.yml"

def releaseEdits : List CallEdit :=
  [.secret "TOKEN" "old", .inheritSecrets, .secret "KEY" "draft", .uses releaseWorkflow,
    .secret "USER" "bot", .settings (.name "Release"), .secret "KEY" "final"]

def namedSinceInheriting : List (String × String) :=
  [("KEY", "draft"), ("USER", "bot"), ("KEY", "final")]

def releaseCall : CallJob :=
  { uses := releaseWorkflow
    name := some "Release"
    secrets := some (.named (.ofList namedSinceInheriting)) }

def namelessEdits : List CallEdit :=
  .uses releaseWorkflow :: releaseEdits.filter CallEdit.onSecrets

def namelessCall : CallJob := { releaseCall with name := none }

theorem finish_secrets_release :
    (ofEdits releaseEdits).finish = .ok releaseCall ∧
    releaseCall.secrets = some (.named (.ofList namedSinceInheriting)) ∧
    SecretsAfter releaseEdits (some (.named (.ofList namedSinceInheriting))) ∧
    (∃ before after, releaseEdits = before ++ after ∧ FreshStart before ∧
      (∀ edit ∈ after, edit.inherits = false) ∧
      (Table.ofList namedSinceInheriting).Records (after.filterMap CallEdit.secret?)) ∧
    (ofEdits namelessEdits).finish = .ok namelessCall ∧
    namelessEdits.filter CallEdit.onSecrets = releaseEdits.filter CallEdit.onSecrets ∧
    namelessCall.secrets = releaseCall.secrets := by
  have hfinish : (ofEdits releaseEdits).finish = .ok releaseCall := rfl
  have hnameless : (ofEdits namelessEdits).finish = .ok namelessCall := rfl
  obtain ⟨hsecrets, htable, hothers⟩ := finish_secrets hfinish
  exact ⟨hfinish, rfl, (hsecrets _).1 rfl, htable _ rfl, hnameless, rfl,
    hothers _ _ hnameless rfl⟩

end CallDraft

end ActionsWorkflow
