import PersonalAssistant.Lib.Program
import PersonalAssistant.Stores.Approvals

/-!
# Concurrent approvals in PostgreSQL

Each statement of `PostgresApprovalStore` is one atomic step: `SELECT` of a record by tenant, principal
and identifier, and an `UPDATE` of its status without any condition on the stored one. `approve` reads
twice before it writes, `cancel` once. A pool runs any number of these calls and keeps the log of the
statements executed.

Nothing orders the statements of two sessions, so an approve and a cancel that both read `pending` both
succeed. `Scheduled` is a condition on that order alone: a call is not overtaken by an opposite `UPDATE`
between its first read and its later statements. Along scheduled runs a decided record stays decided, and
grants and cancellations exclude each other.
-/
namespace PersonalAssistant.PostgresApprovals

open Lib

/-- The columns a statement finds its row by. -/
structure RowKey where
  tenantId : String
  principalId : String
  approvalId : String
deriving DecidableEq

def RowKey.of (principal : Principal) (approvalId : String) : RowKey :=
  ⟨principal.tenantId, principal.principalId, approvalId⟩

/-- The approvals table; a row's payload carries the identifier of its key column, as the `INSERT` wrote
it. -/
structure Table where
  rows : RowKey → Option PendingApproval
  keyed : ∀ key a, rows key = some a → a.approvalId = key.approvalId

/-- The statements. The two reads are the same text; the schedule below tells them apart. -/
inductive Statement where
  | select (key : RowKey)
  /-- The second read of an `approve`, inside `mark_approved`. -/
  | selectAgain (key : RowKey)
  | update (key : RowKey) (record : PendingApproval)
  | clock

def signature : Signature where
  Call := Statement
  Resp
    | .select _ | .selectAgain _ => Option PendingApproval
    | .update _ _ => Unit
    | .clock => Instant

abbrev Session := Program signature PyError

/-- What a call returns to its caller. -/
inductive Result where
  | grant (key : RowKey) (grant : ApprovalGrant)
  | record (key : RowKey) (approval : PendingApproval)

def select (key : RowKey) : Session (Option PendingApproval) :=
  .call (S := signature) (Statement.select key) .ret

def selectAgain (key : RowKey) : Session (Option PendingApproval) :=
  .call (S := signature) (Statement.selectAgain key) .ret

/-- `_update_status`. -/
def updateStatus (principal : Principal) (record : PendingApproval) : Session Unit :=
  .call (S := signature) (Statement.update (.of principal record.approvalId) record) .ret

def clock : Session Instant := .call (S := signature) Statement.clock .ret

/-- `mark_approved`, whose `get` is the second read of an `approve`. -/
def markApproved (principal : Principal) (approvalId : String) : Session PendingApproval := do
  .ofExcept (requireTrustedPrincipal principal)
  match ← selectAgain (.of principal approvalId) with
  | none => .raise (approvalNotFound principal)
  | some approval =>
    if approval.status ≠ .pending then return approval
    let now ← clock
    updateStatus principal (approval.withStatus .approved now)
    return approval.withStatus .approved now

def approve (platform : Platform) (principal : Principal) (approvalId : String) : Session Result := do
  .ofExcept (requireTrustedPrincipal principal)
  match ← select (.of principal approvalId) with
  | none => .raise (approvalNotFound principal)
  | some approval =>
    if approval.status = .cancelled then .raise (approvalCancelled principal)
    else
      let tier ← .ofExcept (PermissionTier.parse approval.tier)
      .ofExcept (requirePermission principal approval.action approval.resource tier)
      let approval ← if approval.status = .pending then markApproved principal approvalId
        else pure approval
      return .grant (.of principal approvalId) (approval.grant platform principal tier)

/-- `cancel`, and `reject`, which only calls it. -/
def cancel (principal : Principal) (approvalId : String) : Session Result := do
  .ofExcept (requireTrustedPrincipal principal)
  match ← select (.of principal approvalId) with
  | none => .raise (approvalNotFound principal)
  | some approval =>
    match approval.status with
    | .approved => .raise (approvedNotCancellable principal)
    | .cancelled => return .record (.of principal approvalId) approval
    | .pending =>
      let now ← clock
      updateStatus principal (approval.withStatus .cancelled now)
      return .record (.of principal approvalId) (approval.withStatus .cancelled now)

/-- One call by some principal on some record. -/
inductive Request where
  | approve (principal : Principal) (approvalId : String)
  | cancel (principal : Principal) (approvalId : String)

def Request.run (platform : Platform) : Request → Session Result
  | .approve p id => PostgresApprovals.approve platform p id
  | .cancel p id => PostgresApprovals.cancel p id

/-- The effect of one statement on the table. An `UPDATE` of an absent row changes nothing. -/
def execute : (c : Statement) → Table → signature.Resp c → Table → Prop
  | .select key, t, r, t' => r = t.rows key ∧ t' = t
  | .selectAgain key, t, r, t' => r = t.rows key ∧ t' = t
  | .update key record, t, _, t' =>
    t'.rows = if (t.rows key).isSome then Function.update t.rows key (some record) else t.rows
  | .clock, t, _, t' => t' = t

/-- The table, and every statement executed so far with the session that issued it. -/
structure Logged (ι : Type) where
  table : Table
  log : List (ι × Statement)

/-- Any session may execute its next statement at any time. -/
def semantics (ι : Type) : Semantics signature (Logged ι) ι :=
  fun i (c : Statement) s r s' => execute c s.table r s'.table ∧ s'.log = s.log ++ [(i, c)]

/-- The row and the status a statement commits its call to: an `approve` that reads again grants unless
the record is gone, and an `UPDATE` overwrites whatever is stored. -/
def Statement.commits : Statement → Option (RowKey × PendingApprovalStatus)
  | .selectAgain key => some (key, .approved)
  | .update key record => some (key, record.status)
  | _ => none

section Schedule

variable {ι : Type}

/-- Session `i` has made its first read of the row. -/
def HasRead (i : ι) (key : RowKey) (log : List (ι × Statement)) : Prop := (i, .select key) ∈ log

/-- After session `i` first read the row, an `UPDATE` wrote a status other than the one `i` is for. -/
def Overtaken (i : ι) (key : RowKey) (status : PendingApprovalStatus) (log : List (ι × Statement)) :
    Prop :=
  ∃ before after, log = before ++ (i, .select key) :: after ∧
    ∃ j record, (j, .update key record) ∈ after ∧ record.status ≠ status

/-- Session `i` may execute this statement now: it is not overtaken. -/
def Scheduled (i : ι) (c : Statement) (log : List (ι × Statement)) : Prop :=
  ∀ key status, c.commits = some (key, status) → ¬ Overtaken i key status log

theorem HasRead.append {i : ι} {key : RowKey} {log : List (ι × Statement)} (h : HasRead i key log)
    (e : ι × Statement) : HasRead i key (log ++ [e]) := List.mem_append_left _ h

/-- A later statement does not undo an overtaking. -/
theorem Overtaken.append {i : ι} {key : RowKey} {status : PendingApprovalStatus}
    {log : List (ι × Statement)} (h : Overtaken i key status log) (e : ι × Statement) :
    Overtaken i key status (log ++ [e]) := by
  obtain ⟨before, after, rfl, j, record, hmem, hne⟩ := h
  exact ⟨before, after ++ [e], by simp, j, record, List.mem_append_left _ hmem, hne⟩

/-- An `UPDATE` to another status overtakes every session that has read the row. -/
theorem HasRead.overtaken {i j : ι} {key : RowKey} {status : PendingApprovalStatus}
    {record : PendingApproval} {log : List (ι × Statement)} (h : HasRead i key log)
    (hne : record.status ≠ status) : Overtaken i key status (log ++ [(j, .update key record)]) := by
  obtain ⟨before, after, rfl⟩ := List.append_of_mem h
  exact ⟨before, after ++ [(j, .update key record)], by simp, j, record, by simp, hne⟩

end Schedule

/-- Runs all of whose statements are scheduled. -/
def scheduledSemantics (ι : Type) : Semantics signature (Logged ι) ι := fun i c s r s' =>
  semantics ι i c s r s' ∧ Scheduled i c s.log

/-! ## Scheduled runs -/

/-- Every record is still there, with its status once that is decided. -/
def KeepsDecisions (t t' : Table) : Prop :=
  ∀ key a, t.rows key = some a →
    ∃ a', t'.rows key = some a' ∧ (a.status ≠ .pending → a'.status = a.status)

theorem KeepsDecisions.refl (t : Table) : KeepsDecisions t t := fun _ a h => ⟨a, h, fun _ => rfl⟩

theorem KeepsDecisions.trans (t u v : Table) (h : KeepsDecisions t u) (g : KeepsDecisions u v) :
    KeepsDecisions t v := by
  intro key a ha
  obtain ⟨b, hb, hs⟩ := h key a ha
  obtain ⟨c, hc, hs'⟩ := g key b hb
  refine ⟨c, hc, fun hne => ?_⟩
  rw [hs' (by rwa [hs hne]), hs hne]

def Present (key : RowKey) (t : Table) : Prop := (t.rows key).isSome = true

/-- The record of `key` exists with this status. -/
def HasStatus (key : RowKey) (status : PendingApprovalStatus) (t : Table) : Prop :=
  ∃ a, t.rows key = some a ∧ a.status = status

/-- What every statement of a scheduled run does: it is one statement, and it keeps every decision. -/
structure Moves {ι : Type} (s s' : Logged ι) : Prop where
  statement : ∃ j c r, semantics ι j c s r s'
  keeps : KeepsDecisions s.table s'.table

section Knowledge

variable {ι : Type}

abbrev StableKnowledge (P : Logged ι → Prop) : Prop := Stable (fun _ => True) Moves P

theorem stable_present (key : RowKey) : StableKnowledge fun s : Logged ι => Present key s.table := by
  intro s s' _ _ h hm
  obtain ⟨a, ha⟩ := Option.isSome_iff_exists.mp h
  obtain ⟨a', ha', -⟩ := hm.keeps key a ha
  simp [Present, ha']

theorem stable_hasStatus (key : RowKey) {status : PendingApprovalStatus} (h : status ≠ .pending) :
    StableKnowledge fun s : Logged ι => HasStatus key status s.table := by
  intro s s' _ _ ⟨a, ha, hs⟩ hm
  obtain ⟨a', ha', hs'⟩ := hm.keeps key a ha
  exact ⟨a', ha', (hs' (hs ▸ h)).trans hs⟩

/-- A statement leaves a present row as it is, unless it is an `UPDATE` of that row. -/
theorem execute_row {c : Statement} {t t' : Table} {r : signature.Resp c} {key : RowKey}
    {a : PendingApproval} (h : execute c t r t') (ha : t.rows key = some a) :
    t'.rows key = some a ∨ ∃ record, c = .update key record ∧ t'.rows key = some record := by
  cases c with
  | select k | selectAgain k =>
    obtain ⟨-, ht⟩ := h
    subst ht
    exact .inl ha
  | clock =>
    simp only [execute] at h
    subst h
    exact .inl ha
  | update k record =>
    simp only [execute] at h
    rw [h]
    by_cases hk : key = k
    · subst hk
      exact .inr ⟨record, rfl, by simp [ha]⟩
    · split
      · exact .inl (by simpa [hk] using ha)
      · exact .inl ha

/-- Session `i` has read the row; unless it has been overtaken, the row is still pending or already in the
status the session is for. -/
def Open (i : ι) (key : RowKey) (status : PendingApprovalStatus) (s : Logged ι) : Prop :=
  HasRead i key s.log ∧ (¬ Overtaken i key status s.log →
    HasStatus key .pending s.table ∨ HasStatus key status s.table)

theorem Open.of_log {i : ι} {key : RowKey} {status : PendingApprovalStatus} {s s' : Logged ι}
    {e : ι × Statement} (h : Open i key status s) (table : s'.table = s.table)
    (log : s'.log = s.log ++ [e]) : Open i key status s' := by
  refine ⟨by rw [log]; exact h.1.append e, fun hno => ?_⟩
  rw [table]
  exact h.2 fun ho => hno (by rw [log]; exact ho.append e)

/-- Only an `UPDATE` moves the row, and one to another status overtakes the session. -/
theorem stable_open (i : ι) (key : RowKey) (status : PendingApprovalStatus) :
    StableKnowledge (Open i key status) := by
  intro s s' _ _ ⟨hread, hopen⟩ hm
  obtain ⟨j, c, r, he, hlog⟩ := hm.statement
  refine ⟨by rw [hlog]; exact hread.append (j, c), fun hno => ?_⟩
  have hrow : HasStatus key .pending s.table ∨ HasStatus key status s.table :=
    hopen fun ho => hno (by rw [hlog]; exact ho.append (j, c))
  obtain ⟨a, ha, hs⟩ : ∃ a, s.table.rows key = some a ∧ (a.status = .pending ∨ a.status = status) := by
    rcases hrow with ⟨a, ha, hs⟩ | ⟨a, ha, hs⟩
    · exact ⟨a, ha, .inl hs⟩
    · exact ⟨a, ha, .inr hs⟩
  rcases execute_row he ha with ha' | ⟨record, rfl, hrecord⟩
  · exact hs.imp (fun h => ⟨a, ha', h⟩) fun h => ⟨a, ha', h⟩
  · refine .inr ⟨record, hrecord, ?_⟩
    by_contra hne
    exact hno (by rw [hlog]; exact hread.overtaken hne)

/-- A decision a call reported is in the table. -/
def Reported : Except PyError Result → Logged ι → Prop
  | .ok (.grant key _), s => HasStatus key .approved s.table
  | .ok (.record key _), s => HasStatus key .cancelled s.table
  | .error _, _ => True

theorem reported_error (e : PyError) (s : Logged ι) : Reported (.error e) s := trivial

/-- Safety of session `i` of a scheduled run against sessions that keep decisions. -/
abbrev SafeSession {α : Type} (i : ι) (Q : Except PyError α → Logged ι → Prop) (p : Session α)
    (P : Logged ι → Prop) : Prop :=
  p.Safe (scheduledSemantics ι i) (fun _ => True) Moves Moves Q P

/-- An `UPDATE` of a row that is pending or already in the written status keeps every decision and leaves
its own. -/
theorem update_spec {key : RowKey} {record : PendingApproval} {t t' : Table} {r : Unit}
    (h : execute (.update key record) t r t') (hp : Present key t)
    (hrow : HasStatus key .pending t ∨ HasStatus key record.status t) :
    KeepsDecisions t t' ∧ HasStatus key record.status t' := by
  have hrows : t'.rows = Function.update t.rows key (some record) := by
    simpa only [execute, show (t.rows key).isSome = true from hp, if_true] using h
  refine ⟨fun j a ha => ?_, record, by rw [hrows]; simp, rfl⟩
  by_cases hj : j = key
  · subst hj
    refine ⟨record, by rw [hrows]; simp, fun hdec => ?_⟩
    rcases hrow with ⟨b, hb, hs⟩ | ⟨b, hb, hs⟩
    · cases ha.symm.trans hb
      exact absurd hs hdec
    · cases ha.symm.trans hb
      exact hs.symm
  · exact ⟨a, by rw [hrows]; simpa [hj] using ha, fun _ => rfl⟩

end Knowledge

section Statements

variable {ι : Type} {i : ι} {α : Type} {Q : Except PyError α → Logged ι → Prop} {P : Logged ι → Prop}

/-- A first read returns the row and is logged; what it tells must be stable to be used. -/
theorem safe_select {key : RowKey} {f : Option PendingApproval → Session α}
    {M : Option PendingApproval → Logged ι → Prop} (stable : ∀ r, StableKnowledge (M r))
    (read : ∀ s, HasRead i key s.log → M (s.table.rows key) s)
    (next : ∀ r, SafeSession i Q (f r) (M r)) : SafeSession i Q (select key >>= f) P := by
  refine Program.safe_call.mpr ?_
  intro s r s' _ _ ⟨⟨⟨hr, ht⟩, hlog⟩, _⟩
  subst hr
  refine ⟨trivial, ⟨⟨i, Statement.select key, _, ⟨rfl, ht⟩, hlog⟩, ht ▸ .refl _⟩, M _, stable _, ?_,
    next _⟩
  rw [← ht]
  exact read s' (by rw [HasRead, hlog]; simp)

/-- The second read of a session that is not overtaken finds the row pending or approved. -/
theorem safe_selectAgain {key : RowKey} {f : Option PendingApproval → Session α}
    {M : Option PendingApproval → Logged ι → Prop} (stable : ∀ r, StableKnowledge (M r))
    (waiting : ∀ s, P s → Open i key .approved s)
    (read : ∀ s, Open i key .approved s → (∀ a, s.table.rows key = some a → a.status ≠ .cancelled) →
      M (s.table.rows key) s)
    (next : ∀ r, SafeSession i Q (f r) (M r)) : SafeSession i Q (selectAgain key >>= f) P := by
  refine Program.safe_call.mpr ?_
  intro s r s' _ hp ⟨⟨⟨hr, ht⟩, hlog⟩, hsched⟩
  have hopen := waiting s hp
  have hrow := hopen.2 (hsched key .approved rfl)
  subst hr
  refine ⟨trivial, ⟨⟨i, Statement.selectAgain key, _, ⟨rfl, ht⟩, hlog⟩, ht ▸ .refl _⟩, M _, stable _, ?_,
    next _⟩
  rw [← ht] at hrow ⊢
  refine read s' (hopen.of_log ht hlog) fun a ha => ?_
  rcases hrow with ⟨b, hb, hs⟩ | ⟨b, hb, hs⟩ <;> cases ha.symm.trans hb <;> simp [hs]

theorem safe_clock {f : Instant → Session α} (stable : StableKnowledge P)
    (next : ∀ now, SafeSession i Q (f now) P) : SafeSession i Q (clock >>= f) P := by
  refine Program.safe_call.mpr ?_
  intro s r s' hi hp ⟨⟨ht, hlog⟩, _⟩
  have hm : Moves s s' := ⟨⟨i, _, r, ht, hlog⟩, by simp only [execute] at ht; exact ht ▸ .refl _⟩
  exact ⟨trivial, hm, P, stable, stable s s' hi trivial hp hm, next r⟩

/-- The `UPDATE` of a session that is not overtaken finds the row pending or in its own status. -/
theorem safe_updateStatus {principal : Principal} {record : PendingApproval} {f : Unit → Session α}
    {approvalId : String} (hne : record.status ≠ .pending)
    (waiting : ∀ s, P s → record.approvalId = approvalId ∧ Present (.of principal approvalId) s.table ∧
      Open i (.of principal approvalId) record.status s)
    (next : SafeSession i Q (f ()) fun s => HasStatus (.of principal approvalId) record.status s.table) :
    SafeSession i Q (updateStatus principal record >>= f) P := by
  refine Program.safe_call.mpr ?_
  intro s r s' _ hp ⟨⟨he, hlog⟩, hsched⟩
  obtain ⟨hid, hpres, hopen⟩ := waiting s hp
  rw [hid] at he hlog hsched
  obtain ⟨hk, hs⟩ := update_spec he hpres (hopen.2 (hsched _ _ rfl))
  exact ⟨trivial, ⟨⟨i, _, _, he, hlog⟩, hk⟩, _, stable_hasStatus _ hne, hs, next⟩

/-- What a read of `key` leaves known to a session that is for `status`: the row exists and carries its
identifier, a decided status is kept, and a pending row is open. -/
def ReadKnowledge (i : ι) (status : PendingApprovalStatus) (key : RowKey) :
    Option PendingApproval → Logged ι → Prop
  | none, _ => True
  | some a, s => a.approvalId = key.approvalId ∧ Present key s.table ∧
      (a.status ≠ .pending → HasStatus key a.status s.table) ∧
      (a.status = .pending → Open i key status s)

theorem stable_readKnowledge (i : ι) (status : PendingApprovalStatus) (key : RowKey)
    (r : Option PendingApproval) : StableKnowledge (ReadKnowledge i status key r) := by
  cases r with
  | none => exact .const True
  | some a =>
    refine .and (.const _) (.and (stable_present key) (.and ?_ ?_))
    · intro s s' hi hi' hs hm hne
      exact stable_hasStatus key hne s s' hi hi' (hs hne) hm
    · intro s s' hi hi' hs hm hp
      exact stable_open i key status s s' hi hi' (hs hp) hm

theorem readKnowledge_rows (status : PendingApprovalStatus) (key : RowKey) (s : Logged ι)
    (h : HasRead i key s.log) : ReadKnowledge i status key (s.table.rows key) s := by
  cases hr : s.table.rows key with
  | none => trivial
  | some a =>
    exact ⟨s.table.keyed key a hr, by simp [Present, hr], fun _ => ⟨a, hr, rfl⟩,
      fun hp => ⟨h, fun _ => .inl ⟨a, hr, hp⟩⟩⟩

/-- `mark_approved` of a row that was pending ends with the record approved, or raises. -/
theorem safe_markApproved (principal : Principal) (approvalId : String) :
    SafeSession i (fun o s => ∀ a, o = .ok a → HasStatus (.of principal approvalId) .approved s.table)
      (markApproved principal approvalId) (Open i (.of principal approvalId) .approved) := by
  have herr : ∀ (e : PyError) (s : Logged ι), ∀ a : PendingApproval, Except.error e = Except.ok a →
      HasStatus (.of principal approvalId) .approved s.table := by
    intro e s a h; cases h
  refine .check (fun e s _ _ _ => herr e s) fun _ _ => ?_
  refine safe_selectAgain (M := fun r s => ReadKnowledge i .approved (.of principal approvalId) r s ∧
      ∀ a, r = some a → a.status ≠ .cancelled)
    (fun r => .and (stable_readKnowledge i _ _ r) (.const _)) (fun s h => h)
    (fun s h hg => ⟨readKnowledge_rows _ _ s h.1, hg⟩) fun r => ?_
  cases r with
  | none => exact Program.safe_raise.mpr fun s _ _ => herr _ s
  | some approval =>
    by_cases hs : approval.status = .pending
    · simp only [hs, ne_eq, not_true_eq_false, if_false]
      refine safe_clock (.and (stable_readKnowledge i _ _ _) (.const _)) fun now => ?_
      exact safe_updateStatus (by simp) (fun s h => ⟨h.1.1, h.1.2.1, h.1.2.2.2 hs⟩)
        (Program.safe_ret.mpr fun s _ h a _ => h)
    · simp only [hs, ne_eq, not_false_eq_true, if_true]
      refine Program.safe_ret.mpr fun s _ h a _ => ?_
      obtain ⟨⟨-, -, hst, -⟩, hc⟩ := h
      have hap : approval.status = .approved := by
        have := hc approval rfl
        cases hq : approval.status <;> simp_all
      exact hap ▸ hst hs

/-- `approve` grants only what is stored as approved. -/
theorem safe_approve (platform : Platform) (principal : Principal) (approvalId : String) :
    SafeSession i Reported (approve platform principal approvalId) (fun _ => True) := by
  refine .check (fun e s _ _ _ => reported_error e s) fun _ _ => ?_
  refine safe_select (stable_readKnowledge i .approved (.of principal approvalId))
    (fun s h => readKnowledge_rows _ _ s h) fun r => ?_
  cases r with
  | none => exact Program.safe_raise.mpr fun s _ _ => reported_error _ s
  | some approval =>
    by_cases hc : approval.status = .cancelled
    · simp only [hc, if_true]
      exact Program.safe_raise.mpr fun s _ _ => reported_error _ s
    · simp only [hc, if_false]
      refine .check (fun e s _ _ _ => reported_error e s) fun tier _ => ?_
      refine .check (fun e s _ _ _ => reported_error e s) fun _ _ => ?_
      by_cases hp : approval.status = .pending
      · simp only [hp, if_true]
        have hm : SafeSession i _ (markApproved principal approvalId)
            (ReadKnowledge i .approved (.of principal approvalId) (some approval)) :=
          (safe_markApproved principal approvalId).pre fun _ _ h => h.2.2.2 hp
        refine hm.bind (fun a => ?_) fun e s _ _ => reported_error e s
        exact Program.safe_ret.mpr fun s _ h => h a rfl
      · simp only [hp, if_false]
        refine Program.safe_ret.mpr fun s _ h => ?_
        have hap : approval.status = .approved := by
          cases hq : approval.status <;> simp_all
        have hdec := h.2.2.1 hp
        rwa [hap] at hdec

/-- `cancel` returns only what is stored as cancelled. -/
theorem safe_cancel (principal : Principal) (approvalId : String) :
    SafeSession i Reported (cancel principal approvalId) (fun _ => True) := by
  refine .check (fun e s _ _ _ => reported_error e s) fun _ _ => ?_
  refine safe_select (stable_readKnowledge i .cancelled (.of principal approvalId))
    (fun s h => readKnowledge_rows _ _ s h) fun r => ?_
  cases r with
  | none => exact Program.safe_raise.mpr fun s _ _ => reported_error _ s
  | some approval =>
    cases hs : approval.status with
    | approved =>
      simp only [hs]
      exact Program.safe_raise.mpr fun s _ _ => reported_error _ s
    | cancelled =>
      simp only [hs]
      refine Program.safe_ret.mpr fun s _ h => ?_
      have hdec := h.2.2.1 (by simp [hs])
      rwa [hs] at hdec
    | pending =>
      simp only [hs]
      refine safe_clock (stable_readKnowledge i _ _ _) fun now => ?_
      exact safe_updateStatus (by simp) (fun s h => ⟨h.1, h.2.1, h.2.2.2 hs⟩)
        (Program.safe_ret.mpr fun s _ h => h)

end Statements

/-- A pool of approve and cancel calls over a table. -/
def pool {ι : Type} (platform : Platform) (requests : ι → Request) (t : Table) :
    Pool signature (Logged ι) ι PyError Result := ⟨⟨t, []⟩, fun i => (requests i).run platform⟩

theorem safe_pool {ι : Type} (platform : Platform) (requests : ι → Request) (t : Table) :
    (pool platform requests t).Safe (scheduledSemantics ι) (fun _ => True) (fun _ => Moves)
      (fun _ => Moves) (fun _ => Reported) := by
  refine ⟨trivial, fun i => ⟨fun _ => True, .const True, trivial, ?_⟩⟩
  change SafeSession i Reported ((requests i).run platform) _
  cases requests i with
  | approve p id => exact safe_approve platform p id
  | cancel p id => exact safe_cancel p id

/-- Along every interleaving of approve and cancel calls none of which is overtaken by an opposite
`UPDATE` between its first read and its later statements, no record is both granted and returned as
cancelled, and a decided status never changes. -/
theorem approve_cancel_exclude {ι : Type} [DecidableEq ι] (platform : Platform)
    (requests : ι → Request) (t : Table) {p q : Pool signature (Logged ι) ι PyError Result}
    (before : Pool.Reaches (scheduledSemantics ι) (pool platform requests t) p)
    (after : Pool.Reaches (scheduledSemantics ι) p q) :
    (∀ i j key g a, p.threads i = .ret (.grant key g) → p.threads j ≠ .ret (.record key a)) ∧
      ∀ key a, p.state.table.rows key = some a → a.status = .approved ∨ a.status = .cancelled →
        ∃ a', q.state.table.rows key = some a' ∧ a'.status = a.status := by
  have hcompat : ∀ i j : ι, i ≠ j → ∀ s s' : Logged ι, Moves s s' → Moves s s' := fun _ _ _ _ _ h => h
  have hp := Pool.sound hcompat (safe_pool platform requests t) before
  refine ⟨fun i j key g a hi hj => ?_, fun key a ha hdec => ?_⟩
  · obtain ⟨b, hb, hs⟩ : HasStatus key .approved p.state.table := hp.returned hi
    obtain ⟨c, hc, hs'⟩ : HasStatus key .cancelled p.state.table := hp.returned hj
    cases hb.symm.trans hc
    simp [hs] at hs'
  · have hk : KeepsDecisions p.state.table q.state.table :=
      Pool.guarantee_of_run (T := fun s s' => KeepsDecisions s.table s'.table) hcompat
        (fun _ => .refl _) (fun _ _ _ => .trans _ _ _) (fun _ _ _ h => h.keeps) hp after
    obtain ⟨a', ha', hs⟩ := hk key a ha
    exact ⟨a', ha', hs (by rcases hdec with h | h <;> simp [h])⟩

/-! ## An interleaving of the statements as they are -/

def pendingRecord : PendingApproval where
  approvalId := "apr-1"
  tenantId := "tenant-1"
  principalId := "user-1"
  action := "calendar.create_event"
  resource := "key-1:calendar"
  tier := "P3"
  workflowKind := "reminder.create"
  messageId := "msg-1"
  sourceEventId := "src-1"
  conversationId := "conv-1"
  channel := "telegram"
  recipient := "user-1"
  requestText := "recuerdame llamar"
  requestNow := ⟨0, Nat.zero_le _⟩
  timezone := "America/Bogota"
  idempotencyKey := "key-1"
  payloadFingerprint := Digest.zero.text
  status := .pending
  createdAt := ⟨0, Nat.zero_le _⟩
  updatedAt := none

def recordKey : RowKey := .of .sample "apr-1"

/-- A table with one record. -/
def oneRow (a : PendingApproval) (h : a.approvalId = "apr-1") : Table where
  rows key := if key = recordKey then some a else none
  keyed key b hb := by
    split_ifs at hb with hk
    cases hb; subst hk; exact h

theorem update_oneRow (a b : PendingApproval) (ha : a.approvalId = "apr-1")
    (hb : b.approvalId = "apr-1") :
    execute (.update recordKey b) (oneRow a ha) () (oneRow b hb) := by
  have hsome : ((oneRow a ha).rows recordKey).isSome = true := by simp [oneRow]
  simp only [execute, hsome, if_true]
  funext key
  by_cases hk : key = recordKey
  · simp [oneRow, hk]
  · simp [oneRow, hk]

def racing : Bool → Request
  | true => .approve .sample "apr-1"
  | false => .cancel .sample "apr-1"

def racePlatform : Platform :=
  .ofTable [(jsonText pendingRecord.document,
    ⟨"46aece33c357a163928d1ffe14f30ed4ae93ece53020857fdedbfc2434772db4", by decide⟩)]

/-- An approve and a cancel of one pending record, as statements of two sessions. -/
def race : Pool signature (Logged Bool) Bool PyError Result :=
  pool racePlatform racing (oneRow pendingRecord rfl)

def raceClock : Instant := ⟨1, by decide⟩

section Steps

variable {ι : Type} [DecidableEq ι] {i : ι} {t t' : Table} {log : List (ι × Statement)}
  {ts : ι → Session Result} {c : Statement} {k : signature.Resp c → Session Result}
  {r : signature.Resp c}

theorem step_of_execute (next : ts i = .call (S := signature) c k) (h : execute c t r t') :
    Pool.Step (semantics ι) i ⟨⟨t, log⟩, ts⟩ ⟨⟨t', log ++ [(i, c)]⟩, Function.update ts i (k r)⟩ :=
  .call next ⟨h, rfl⟩

theorem scheduled_step_of_execute (next : ts i = .call (S := signature) c k) (h : execute c t r t')
    (hs : Scheduled i c log) :
    Pool.Step (scheduledSemantics ι) i ⟨⟨t, log⟩, ts⟩
      ⟨⟨t', log ++ [(i, c)]⟩, Function.update ts i (k r)⟩ :=
  .call next ⟨⟨h, rfl⟩, hs⟩

end Steps

/-- Both sessions read `pending`; the approve writes, then the cancel does. Both calls succeed. -/
theorem approve_and_cancel_both_succeed :
    ∃ q, Pool.Reaches (semantics Bool) race q ∧
      ∃ g a, q.threads true = .ret (.grant recordKey g) ∧
        q.threads false = .ret (.record recordKey a) ∧ a.status = .cancelled := by
  refine ⟨_, .head ⟨true, step_of_execute rfl ⟨rfl, rfl⟩⟩ <|
    .head ⟨false, step_of_execute rfl ⟨rfl, rfl⟩⟩ <|
    .head ⟨true, step_of_execute rfl ⟨rfl, rfl⟩⟩ <|
    .head ⟨true, step_of_execute (c := .clock) (r := raceClock) rfl rfl⟩ <|
    .head ⟨true, step_of_execute rfl (update_oneRow _ _ rfl rfl)⟩ <|
    .head ⟨false, step_of_execute (c := .clock) (r := raceClock) rfl rfl⟩ <|
    .head ⟨false, step_of_execute rfl (update_oneRow _ _ rfl rfl)⟩ .refl, ?_⟩
  exact ⟨_, _, rfl, rfl, rfl⟩

/-- A log without an `UPDATE` overtakes nobody. -/
theorem scheduled_of_no_update {ι : Type} (i : ι) (c : Statement) {log : List (ι × Statement)}
    (h : ∀ j key record, (j, Statement.update key record) ∉ log) : Scheduled i c log := by
  rintro key status - ⟨before, after, rfl, j, record, hmem, -⟩
  exact h j key record (by simp [hmem])

/-- The approve runs alone: its statements are scheduled, and the cancel can no longer succeed. -/
theorem approve_first_excludes_cancel :
    ∃ q, Pool.Reaches (scheduledSemantics Bool) race q ∧
      (∃ g, q.threads true = .ret (.grant recordKey g)) ∧
      ∀ a, q.threads false ≠ .ret (.record recordKey a) := by
  have hrun : ∃ q, Pool.Reaches (scheduledSemantics Bool) race q ∧
      ∃ g, q.threads true = .ret (.grant recordKey g) := by
    refine ⟨_, .head ⟨true, scheduled_step_of_execute rfl ⟨rfl, rfl⟩
        (scheduled_of_no_update _ _ (by simp))⟩ <|
      .head ⟨true, scheduled_step_of_execute rfl ⟨rfl, rfl⟩
        (scheduled_of_no_update _ _ (by simp))⟩ <|
      .head ⟨true, scheduled_step_of_execute (c := .clock) (r := raceClock) rfl rfl
        (scheduled_of_no_update _ _ (by simp))⟩ <|
      .head ⟨true, scheduled_step_of_execute rfl (update_oneRow _ _ rfl rfl)
        (scheduled_of_no_update _ _ (by simp))⟩ .refl, ?_⟩
    exact ⟨_, rfl⟩
  obtain ⟨q, hq, g, hg⟩ := hrun
  exact ⟨q, hq, ⟨g, hg⟩, fun a => (approve_cancel_exclude racePlatform racing _ hq .refl).1 true false
    recordKey g a hg⟩

end PersonalAssistant.PostgresApprovals
