import PersonalAssistant.Postgres.WorkflowStates
import PersonalAssistant.Stores.WorkflowRegistry

/-!
# Concurrent writers of workflow states

Any number of registrations and upserts over one table under `READ COMMITTED`, one statement at a time.
A session sees what is committed and its own writes. Its writes and its `SELECT … FOR UPDATE` lock the
row until the transaction ends; a row that does not exist cannot be locked. A statement that has to wait
for another session makes no step.

An upsert that found no row holds no lock, so its `INSERT … DO UPDATE` may meet a row that was committed
meanwhile, and the statement does not look at the status it overwrites. `Guarded` says that this does not
happen to a terminal row; along guarded runs a committed terminal row never changes.
-/
namespace PersonalAssistant

open Lib InMemoryOutbox

variable {ι : Type}

/-- What is committed, what each session wrote since its last commit, and who holds which row. -/
structure WorkflowDatabase (ι : Type) where
  committed : Key → Option WorkflowRow
  pending : ι → Key → Option WorkflowRow
  locks : Key → Option ι

namespace WorkflowDatabase

def ofTable (committed : Key → Option WorkflowRow) : WorkflowDatabase ι :=
  ⟨committed, fun _ _ => none, fun _ => none⟩

/-- What a session reads of a row. -/
def visible (d : WorkflowDatabase ι) (i : ι) (k : Key) : Option WorkflowRow :=
  (d.pending i k).or (d.committed k)

/-- No other session holds the row. -/
def Free (d : WorkflowDatabase ι) (i : ι) (k : Key) : Prop := d.locks k = none ∨ d.locks k = some i

/-- A row of the tenant, committed or not, has the workflow identifier. -/
def Clashes (d : WorkflowDatabase ι) (row : WorkflowRow) : Prop :=
  ∃ k old, (d.committed k = some old ∨ ∃ j, d.pending j k = some old) ∧ k.1 = row.tenantId ∧
    old.workflowId = row.workflowId

variable [DecidableEq ι]

def lock (d : WorkflowDatabase ι) (i : ι) (k : Key) : WorkflowDatabase ι :=
  { d with locks := Function.update d.locks k (some i) }

def write (d : WorkflowDatabase ι) (i : ι) (k : Key) (row : WorkflowRow) : WorkflowDatabase ι :=
  { d with
    pending := Function.update d.pending i (Function.update (d.pending i) k (some row))
    locks := Function.update d.locks k (some i) }

/-- The transaction of a session ends without its writes. -/
def rollback (d : WorkflowDatabase ι) (i : ι) : WorkflowDatabase ι :=
  { d with
    pending := Function.update d.pending i fun _ => none
    locks := fun k => if d.locks k = some i then none else d.locks k }

def commit (d : WorkflowDatabase ι) (i : ι) : WorkflowDatabase ι :=
  { d.rollback i with committed := d.visible i }

/-- A statement fails: its session is in an aborted transaction, or lost and rolled back. -/
def Fails {α : Type} (i : ι) (d : WorkflowDatabase ι) (r : Except PyError α) (d' : WorkflowDatabase ι) :
    Prop :=
  (∃ e, r = .error e) ∧ (d' = d ∨ d' = d.rollback i)

/-- The possible effects of a statement of session `i`. -/
def Executes (i : ι) : (c : WorkflowStatement) → WorkflowDatabase ι → c.Resp → WorkflowDatabase ι → Prop
  | .insert row, d, r, d' =>
    Fails i d r d' ∨
    ((d.visible i row.key).isSome ∧ r = .ok none ∧ d' = d) ∨
    (d.visible i row.key = none ∧ d.Free i row.key ∧ ¬ d.Clashes row ∧ r = .ok (some row.payload) ∧
      d' = d.write i row.key row)
  | .selectForUpdate k, d, r, d' =>
    Fails i d r d' ∨
    (d.visible i k = none ∧ r = .ok none ∧ d' = d) ∨
    (∃ row, d.visible i k = some row ∧ d.Free i k ∧ r = .ok (some row) ∧ d' = d.lock i k)
  | .select k, d, r, d' =>
    Fails i d r d' ∨ (r = .ok (d.visible i k) ∧ d' = d)
  | .resume k resumed fingerprint step payloadFingerprint, d, r, d' =>
    Fails i d r d' ∨
    ((∀ row, d.visible i k = some row → row.awaits step payloadFingerprint = false) ∧ r = .ok none ∧
      d' = d) ∨
    (∃ row, d.visible i k = some row ∧ d.Free i k ∧ row.awaits step payloadFingerprint = true ∧
      r = .ok (some resumed) ∧ d' = d.write i k (row.resumedAs resumed fingerprint))
  | .insertOrUpdate row _, d, r, d' =>
    Fails i d r d' ∨
    (d.visible i row.key = none ∧ d.Free i row.key ∧ ¬ d.Clashes row ∧ r = .ok (some row.payload) ∧
      d' = d.write i row.key row) ∨
    (∃ old, d.visible i row.key = some old ∧ d.Free i row.key ∧ old.sameIdentity row = false ∧
      r = .ok none ∧ d' = d.lock i row.key) ∨
    (∃ old, d.visible i row.key = some old ∧ d.Free i row.key ∧ old.sameIdentity row = true ∧
      r = .ok (some row.payload) ∧ d' = d.write i row.key (old.overwritten row))
  | .commit, d, r, d' => (r = .ok () ∧ d' = d.commit i) ∨
    ((∃ e, r = .error e) ∧ (d' = d.commit i ∨ d' = d.rollback i))
  | .rollback, d, _, d' => d' = d.rollback i
  | .clock, d, _, d' => d' = d

/-- The `INSERT … DO UPDATE` of an upsert that found no row meets no committed terminal row of the same
identity. -/
def Guarded : WorkflowStatement → WorkflowDatabase ι → Prop
  | .insertOrUpdate row false, d => ∀ old, d.committed row.key = some old →
    old.status.isTerminal = true → old.sameIdentity row = false
  | _, _ => True

def semantics (ι : Type) [DecidableEq ι] : Semantics workflowStatements (WorkflowDatabase ι) ι :=
  Executes

/-- Runs all of whose statements are guarded. -/
def guardedSemantics (ι : Type) [DecidableEq ι] :
    Semantics workflowStatements (WorkflowDatabase ι) ι := fun i c d r d' =>
  Executes i c d r d' ∧ Guarded c d

/-! ## What one statement keeps -/

/-- The committed row, if any, may still be overwritten. -/
def Unfinished (k : Key) (d : WorkflowDatabase ι) : Prop :=
  ∀ old, d.committed k = some old → old.status.isTerminal = false

/-- Uncommitted writes are locked, and stand over no terminal row. -/
structure Locked (d : WorkflowDatabase ι) : Prop where
  locks : ∀ i k row, d.pending i k = some row → d.locks k = some i
  unfinished : ∀ i k row, d.pending i k = some row → d.Unfinished k

/-- Committed terminal rows are still there, unchanged. -/
def KeepsTerminal (d d' : WorkflowDatabase ι) : Prop :=
  ∀ k row, d.committed k = some row → row.status.isTerminal = true → d'.committed k = some row

/-- What the other sessions leave alone of session `j`: its writes, and the rows it holds. -/
structure Respects (j : ι) (d d' : WorkflowDatabase ι) : Prop where
  pending : d'.pending j = d.pending j
  held : ∀ k, d.locks k = some j → d'.locks k = some j ∧ d'.committed k = d.committed k

/-- What a step of session `i` guarantees. -/
structure Guarantees (i : ι) (d d' : WorkflowDatabase ι) : Prop where
  terminal : d.KeepsTerminal d'
  others : ∀ j, j ≠ i → d.Respects j d'

variable {d d' : WorkflowDatabase ι} {i j : ι} {k : Key} {row : WorkflowRow}

omit [DecidableEq ι] in
theorem Guarantees.refl (i : ι) (d : WorkflowDatabase ι) : d.Guarantees i d :=
  ⟨fun _ _ h _ => h, fun _ _ => ⟨rfl, fun _ h => ⟨h, rfl⟩⟩⟩

omit [DecidableEq ι] in
/-- A row that is free for `i` is held by no other session. -/
theorem Free.ne_of_held (h : d.Free i k) (hj : j ≠ i) {k' : Key} (hk : d.locks k' = some j) :
    k' ≠ k := by
  rintro rfl
  obtain h | h := h
  · cases h.symm.trans hk
  · cases h.symm.trans hk
    exact hj rfl

omit [DecidableEq ι] in
theorem lock_spec (h : d.Locked) (hf : d.Free i k) :
    (d.lock i k).Locked ∧ d.Guarantees i (d.lock i k) := by
  refine ⟨⟨fun j k' row hrow => ?_, h.unfinished⟩, ⟨fun _ _ hc _ => hc, fun j hj => ⟨rfl, ?_⟩⟩⟩
  · have hlock := h.locks j k' row hrow
    by_cases hk : k' = k
    · subst hk
      obtain hnone | hi := hf
      · cases hnone.symm.trans hlock
      · cases hi.symm.trans hlock
        simp [lock]
    · simpa [lock, hk] using hlock
  · intro k' hk'
    have hne := hf.ne_of_held hj hk'
    exact ⟨by simpa [lock, hne] using hk', rfl⟩

theorem write_spec (h : d.Locked) (hf : d.Free i k) (hu : d.Unfinished k) :
    (d.write i k row).Locked ∧ d.Guarantees i (d.write i k row) := by
  obtain ⟨hlocked, hguar⟩ := lock_spec h hf
  refine ⟨⟨fun j k' r hr => ?_, fun j k' r hr => ?_⟩, ⟨hguar.terminal, fun j hj => ⟨?_, ?_⟩⟩⟩
  · by_cases hj : j = i
    · subst hj
      by_cases hk : k' = k
      · simp [write, hk]
      · simp only [write, Function.update_self, Function.update_of_ne hk] at hr
        exact hlocked.locks j k' r hr
    · simp only [write, Function.update_of_ne hj] at hr
      exact hlocked.locks j k' r hr
  · by_cases hj : j = i
    · subst hj
      by_cases hk : k' = k
      · exact hk ▸ hu
      · simp only [write, Function.update_self, Function.update_of_ne hk] at hr
        exact h.unfinished j k' r hr
    · simp only [write, Function.update_of_ne hj] at hr
      exact h.unfinished j k' r hr
  · simp [write, hj]
  · exact (hguar.others j hj).held

theorem rollback_spec (h : d.Locked) (i : ι) :
    (d.rollback i).Locked ∧ d.Guarantees i (d.rollback i) := by
  refine ⟨⟨fun j k row hrow => ?_, fun j k row hrow => ?_⟩, ⟨fun _ _ hc _ => hc, fun j hj => ⟨?_, ?_⟩⟩⟩
  · by_cases hj : j = i
    · subst hj
      simp [rollback] at hrow
    · simp only [rollback, Function.update_of_ne hj] at hrow
      simp [rollback, h.locks j k row hrow, hj]
  · by_cases hj : j = i
    · subst hj
      simp [rollback] at hrow
    · simp only [rollback, Function.update_of_ne hj] at hrow
      exact h.unfinished j k row hrow
  · simp [rollback, hj]
  · intro k hk
    exact ⟨by simp [rollback, hk, hj], rfl⟩

/-- A commit publishes only rows the session holds, over no terminal row. -/
theorem commit_spec (h : d.Locked) (i : ι) :
    (d.commit i).Locked ∧ d.Guarantees i (d.commit i) := by
  obtain ⟨hlocked, hguar⟩ := rollback_spec h i
  have hsame : ∀ j k, j ≠ i → d.locks k = some j → (d.commit i).committed k = d.committed k := by
    intro j k hj hk
    cases hp : d.pending i k with
    | none => simp [commit, visible, hp]
    | some row =>
      cases (h.locks i k row hp).symm.trans hk
      exact absurd rfl hj
  refine ⟨⟨hlocked.locks, fun j k row hrow => ?_⟩, ⟨fun k row hc hterm => ?_, fun j hj =>
    ⟨(hguar.others j hj).pending, fun k hk => ⟨((hguar.others j hj).held k hk).1, hsame j k hj hk⟩⟩⟩⟩
  · by_cases hj : j = i
    · subst hj
      simp [commit, rollback] at hrow
    · simp only [commit, rollback, Function.update_of_ne hj] at hrow
      intro old hold
      rw [hsame j k hj (h.locks j k row hrow)] at hold
      exact h.unfinished j k row hrow old hold
  · cases hp : d.pending i k with
    | none => simpa [commit, visible, hp] using hc
    | some r =>
      have hopen := h.unfinished i k r hp row hc
      rw [hopen] at hterm
      cases hterm

/-- What a statement may overwrite. -/
def Writable : WorkflowStatement → WorkflowDatabase ι → Prop
  | .insertOrUpdate row _, d => ∀ old, d.committed row.key = some old →
    old.status.isTerminal = true → old.sameIdentity row = false
  | _, _ => True

omit [DecidableEq ι] in
theorem unfinished_of_visible (h : d.Locked) {old : WorkflowRow} (hv : d.visible i k = some old)
    (hold : d.committed k = some old → old.status.isTerminal = false) : d.Unfinished k := by
  cases hp : d.pending i k with
  | some r => exact h.unfinished i k r hp
  | none =>
    simp only [visible, hp, Option.none_or] at hv
    intro old' hold'
    cases hv.symm.trans hold'
    exact hold hv

omit [DecidableEq ι] in
theorem unfinished_of_invisible (hv : d.visible i k = none) : d.Unfinished k := by
  intro old hold
  simp [visible, hold] at hv

theorem fails_spec {α : Type} (h : d.Locked) {r : Except PyError α} (hf : Fails i d r d') :
    d'.Locked ∧ d.Guarantees i d' := by
  obtain ⟨-, rfl | rfl⟩ := hf
  · exact ⟨h, .refl i d'⟩
  · exact rollback_spec h i

/-- Every statement that may overwrite what it meets keeps the locks and the guarantee. -/
theorem executes_spec {c : WorkflowStatement} {r : c.Resp} (h : d.Locked) (he : Executes i c d r d')
    (hw : Writable c d) : d'.Locked ∧ d.Guarantees i d' := by
  cases c with
  | insert row =>
    obtain hf | ⟨-, -, rfl⟩ | ⟨hv, hfree, -, -, rfl⟩ := he
    · exact fails_spec h hf
    · exact ⟨h, .refl i d'⟩
    · exact write_spec h hfree (unfinished_of_invisible hv)
  | selectForUpdate k =>
    obtain hf | ⟨-, -, rfl⟩ | ⟨row, -, hfree, -, rfl⟩ := he
    · exact fails_spec h hf
    · exact ⟨h, .refl i d'⟩
    · exact lock_spec h hfree
  | select k =>
    obtain hf | ⟨-, rfl⟩ := he
    · exact fails_spec h hf
    · exact ⟨h, .refl i d'⟩
  | resume k resumed fingerprint step payloadFingerprint =>
    obtain hf | ⟨-, -, rfl⟩ | ⟨row, hv, hfree, hawaits, -, rfl⟩ := he
    · exact fails_spec h hf
    · exact ⟨h, .refl i d'⟩
    · refine write_spec h hfree (unfinished_of_visible h hv fun _ => ?_)
      simp only [WorkflowRow.awaits, Bool.and_eq_true, decide_eq_true_eq] at hawaits
      simp [hawaits.1.1, WorkflowStatus.isTerminal]
  | insertOrUpdate row found =>
    obtain hf | ⟨hv, hfree, -, -, rfl⟩ | ⟨old, -, hfree, -, -, rfl⟩ | ⟨old, hv, hfree, hid, -, rfl⟩ := he
    · exact fails_spec h hf
    · exact write_spec h hfree (unfinished_of_invisible hv)
    · exact lock_spec h hfree
    · refine write_spec h hfree (unfinished_of_visible h hv fun hold => ?_)
      by_contra hterm
      have hne := hw old hold (by simpa using hterm)
      rw [hid] at hne
      cases hne
  | commit =>
    obtain ⟨-, rfl⟩ | ⟨-, rfl | rfl⟩ := he
    · exact commit_spec h i
    · exact commit_spec h i
    · exact rollback_spec h i
  | rollback =>
    obtain rfl := he
    exact rollback_spec h i
  | clock =>
    obtain rfl := he
    exact ⟨h, .refl i d'⟩

/-! ## Sessions -/

open PostgresWorkflowStateStore

variable {α : Type} {P : WorkflowDatabase ι → Prop}

/-- A session that keeps the locks and its guarantee against sessions that respect it. -/
abbrev SafeSession (i : ι) (p : Session α) (P : WorkflowDatabase ι → Prop) : Prop :=
  p.Safe (guardedSemantics ι i) Locked (Respects i) (Guarantees i) (fun _ _ => True) P

/-- A statement that may overwrite what it meets, whatever that is. -/
def Harmless : WorkflowStatement → Prop
  | .insertOrUpdate _ found => found = false
  | _ => True

theorem safe_of_harmless {p : Session α} (h : p.All Harmless) (i : ι) (P : WorkflowDatabase ι → Prop) :
    SafeSession i p P := by
  refine .of_all (fun c d r d' hc hlocked ⟨he, hg⟩ => ?_) h P
  refine executes_spec hlocked he ?_
  cases c with
  | insertOrUpdate row found =>
    obtain rfl : found = false := hc
    exact hg
  | _ => trivial

/-- The row is held by the session and may be overwritten. -/
def Holds (i : ι) (k : Key) (d : WorkflowDatabase ι) : Prop := d.locks k = some i ∧ d.Unfinished k

omit [DecidableEq ι] in
theorem stable_holds (i : ι) (k : Key) : Stable Locked (Respects i) (Holds i k) := by
  intro d d' _ _ ⟨hlock, hopen⟩ hr
  obtain ⟨hlock', hsame⟩ := hr.held k hlock
  exact ⟨hlock', by rw [Unfinished, hsame]; exact hopen⟩

/-- A row found `FOR UPDATE` that is not terminal stays so while it is held. -/
theorem safe_selectForUpdate {f : Option WorkflowRow → Session α}
    (absent : SafeSession i (f none) fun _ => True)
    (found : ∀ row, SafeSession i (f (some row))
      fun d => row.status.isTerminal = false → Holds i k d) :
    SafeSession i (selectForUpdate k >>= f) P := by
  refine Program.safe_call.mpr fun d r d' hlocked _ ⟨he, hg⟩ => ?_
  obtain ⟨hlocked', hguar⟩ := executes_spec hlocked he trivial
  refine ⟨hlocked', hguar, ?_⟩
  obtain ⟨⟨e, rfl⟩, -⟩ | ⟨-, rfl, -⟩ | ⟨row, hv, hfree, rfl, rfl⟩ := he
  · exact ⟨fun _ => True, .const True, trivial, Program.safe_raise.mpr fun _ _ _ => trivial⟩
  · exact ⟨fun _ => True, .const True, trivial, absent⟩
  · refine ⟨_, ?_, fun hopen => ?_, found row⟩
    · intro d d' hd hd' hh hr hopen
      exact stable_holds i k d d' hd hd' (hh hopen) hr
    · have hunfinished := unfinished_of_visible hlocked hv fun _ => hopen
      exact ⟨by simp [lock], hunfinished⟩

/-- Overwriting a row that is held. -/
theorem safe_insertOrUpdate {f : Option WorkflowState → Session α}
    (next : ∀ saved, SafeSession i (f saved) fun _ => True) (held : ∀ d, P d → Holds i row.key d) :
    SafeSession i (insertOrUpdate row true >>= f) P := by
  refine Program.safe_call.mpr fun d r d' hlocked hP ⟨he, _⟩ => ?_
  have hw : Writable (.insertOrUpdate row true) d := by
    intro old hold hterm
    have hopen := (held d hP).2 old hold
    rw [hopen] at hterm
    cases hterm
  obtain ⟨hlocked', hguar⟩ := executes_spec hlocked he hw
  refine ⟨hlocked', hguar, fun _ => True, .const True, trivial, ?_⟩
  cases r with
  | error e => exact Program.safe_raise.mpr fun _ _ _ => trivial
  | ok saved => exact next saved

theorem harmless_statement (c : WorkflowStatement) (h : Harmless c)
    {f : c.Resp → Session α} (next : ∀ r, (f r).All Harmless) :
    (Program.perform (S := workflowStatements) c >>= f).All Harmless := ⟨h, next⟩

/-- Commit and rollback keep what the body kept. -/
theorem safe_transaction {body : Session α} (h : SafeSession i body P) :
    SafeSession i (transaction body) P := by
  have hbody : SafeSession i ((body >>= fun a => pure (Except.ok a)).handle fun e => pure (.error e) :
      Session (Except PyError α)) P := by
    refine .handle (M := fun _ _ => True) ?_ (fun _ _ _ _ => trivial) fun e =>
      Program.safe_ret.mpr fun _ _ _ => trivial
    exact h.bind (fun a => Program.safe_ret.mpr fun _ _ _ => trivial) fun _ _ _ _ => trivial
  refine hbody.bind (fun outcome => ?_) fun _ _ _ _ => trivial
  cases outcome with
  | ok a =>
    have hcommit : (do
        let committed ← Program.perform (S := workflowStatements) .commit
        Program.ofExcept committed
        return a : Session α).All Harmless :=
      harmless_statement .commit trivial fun r => .bind (.ofExcept r) fun _ => trivial
    exact safe_of_harmless hcommit i _
  | error e =>
    have hrollback : (do
        let _ ← Program.perform (S := workflowStatements) .rollback
        .raise e : Session α).All Harmless := ⟨trivial, fun _ => trivial⟩
    exact safe_of_harmless hrollback i _

theorem harmless_write (platform : Platform) (principal : Principal) (state : WorkflowState) :
    (PostgresWorkflowStateStore.write platform principal state false).All Harmless := by
  refine .bind ⟨rfl, fun r => .ofExcept r⟩ fun saved => ?_
  cases saved with
  | none => trivial
  | some saved => trivial

theorem harmless_replay (platform : Platform) (principal : Principal) (state : WorkflowState)
    (resumeFromStep : Option String) :
    (replay platform principal state resumeFromStep).All Harmless := by
  refine .bind ⟨trivial, fun r => .ofExcept r⟩ fun row => ?_
  cases row with
  | none => trivial
  | some existing =>
    refine .bind (.ofExcept _) fun _ => .bind (.ofExcept _) fun _ => ?_
    cases resumeFromStep with
    | none => trivial
    | some step =>
      simp only
      split_ifs
      · refine .bind ⟨trivial, fun _ => trivial⟩ fun now => ?_
        refine .bind ⟨trivial, fun r => .ofExcept r⟩ fun saved => ?_
        cases saved with
        | none => trivial
        | some saved => trivial
      · trivial

theorem safe_registerOrReplay (platform : Platform) (principal : Principal) (state : WorkflowState)
    (resumeFromStep : Option String) (i : ι) (P : WorkflowDatabase ι → Prop) :
    SafeSession i (registerOrReplay platform principal state resumeFromStep) P := by
  refine .check (fun _ _ _ _ _ => trivial) fun _ _ => ?_
  refine .check (fun _ _ _ _ _ => trivial) fun _ _ => ?_
  refine .check (fun _ _ _ _ _ => trivial) fun _ _ => ?_
  refine safe_transaction (safe_of_harmless ?_ i P)
  refine .bind ⟨trivial, fun r => .ofExcept r⟩ fun inserted => ?_
  cases inserted with
  | none => exact harmless_replay platform principal state resumeFromStep
  | some state => trivial

theorem safe_upsert (platform : Platform) (principal : Principal) (state : WorkflowState) (i : ι)
    (P : WorkflowDatabase ι → Prop) : SafeSession i (upsert platform principal state) P := by
  refine .check (fun _ _ _ _ _ => trivial) fun _ _ => ?_
  refine .check (fun _ _ _ _ _ => trivial) fun _ _ => ?_
  refine safe_transaction (safe_selectForUpdate ?_ fun existing => ?_)
  · exact safe_of_harmless (harmless_write platform principal state) i _
  refine .check (fun _ _ _ _ _ => trivial) fun _ _ => ?_
  refine .check (fun _ _ _ _ _ => trivial) fun _ _ => ?_
  cases hterm : existing.status.isTerminal with
  | true =>
    simp only [if_true]
    refine .check (fun _ _ _ _ _ => trivial) fun _ _ => ?_
    exact Program.safe_ret.mpr fun _ _ _ => trivial
  | false =>
    simp only [Bool.false_eq_true, if_false]
    refine safe_insertOrUpdate (fun saved => ?_) fun d hd => hd trivial
    cases saved with
    | none => exact Program.safe_raise.mpr fun _ _ _ => trivial
    | some saved => exact Program.safe_ret.mpr fun _ _ _ => trivial

/-! ## Runs -/

end WorkflowDatabase

/-- A transaction of some caller. -/
inductive WorkflowRequest where
  | registerOrReplay (principal : Principal) (state : WorkflowState) (resumeFromStep : Option String)
  | upsert (principal : Principal) (state : WorkflowState)

def WorkflowRequest.run (platform : Platform) : WorkflowRequest → PostgresWorkflowStateStore.Session Unit
  | .registerOrReplay principal state resumeFromStep => do
    let _ ← PostgresWorkflowStateStore.registerOrReplay platform principal state resumeFromStep
  | .upsert principal state => do
    let _ ← PostgresWorkflowStateStore.upsert platform principal state

namespace WorkflowDatabase

variable [DecidableEq ι]

/-- Any number of transactions over a table. -/
def pool (platform : Platform) (requests : ι → WorkflowRequest) (t : Key → Option WorkflowRow) :
    Pool workflowStatements (WorkflowDatabase ι) ι PyError Unit :=
  ⟨.ofTable t, fun i => (requests i).run platform⟩

theorem safe_pool (platform : Platform) (requests : ι → WorkflowRequest) (t : Key → Option WorkflowRow) :
    (pool platform requests t).Safe (guardedSemantics ι) Locked Respects Guarantees
      (fun _ _ _ => True) := by
  refine ⟨⟨fun _ _ _ h => (by cases h), fun _ _ _ h => (by cases h)⟩, fun i =>
    ⟨fun _ => True, .const True, trivial, ?_⟩⟩
  change SafeSession i ((requests i).run platform) _
  cases requests i with
  | registerOrReplay principal state resumeFromStep =>
    exact (safe_registerOrReplay platform principal state resumeFromStep i _).bind
      (fun _ => Program.safe_ret.mpr fun _ _ _ => trivial) fun _ _ _ h => h
  | upsert principal state =>
    exact (safe_upsert platform principal state i _).bind
      (fun _ => Program.safe_ret.mpr fun _ _ _ => trivial) fun _ _ _ h => h

/-- Along every interleaving whose statements are all guarded, a committed row that is completed or
failed never changes again. -/
theorem terminal_rows_survive (platform : Platform) (requests : ι → WorkflowRequest)
    (t : Key → Option WorkflowRow)
    {p q : Pool workflowStatements (WorkflowDatabase ι) ι PyError Unit}
    (before : Pool.Reaches (guardedSemantics ι) (pool platform requests t) p)
    (after : Pool.Reaches (guardedSemantics ι) p q) :
    ∀ k row, p.state.committed k = some row → row.status.isTerminal = true →
      q.state.committed k = some row := by
  have hcompat : ∀ i j : ι, i ≠ j → ∀ d d' : WorkflowDatabase ι, d.Guarantees i d' → d.Respects j d' :=
    fun i j hij _ _ h => h.others j (Ne.symm hij)
  have hp := Pool.sound hcompat (safe_pool platform requests t) before
  exact Pool.guarantee_of_run hcompat (T := KeepsTerminal) (fun _ _ _ h _ => h)
    (fun _ _ _ h g k row hk hterm => g k row (h k row hk hterm) hterm) (fun _ _ _ h => h.terminal) hp
    after

/-! ## Two upserts of one key -/

open InMemoryWorkflowStateStore in
/-- One session writes the completed state, the other still has the running one. -/
def racingUpserts : Bool → WorkflowRequest
  | true => .upsert .sample (sampleWorkflowState .running)
  | false => .upsert .sample (sampleWorkflowState .completed)

def upsertRace : Pool workflowStatements (WorkflowDatabase Bool) Bool PyError Unit :=
  pool InMemoryWorkflowStateStore.sampleStatePlatform racingUpserts fun _ => none

def raceKey : Key := ("tenant-1", "key-1")

theorem not_clashes_empty (row : WorkflowRow) :
    ¬ (WorkflowDatabase.ofTable fun _ => none : WorkflowDatabase Bool).Clashes row := by
  rintro ⟨k, old, h | ⟨j, h⟩, -⟩ <;> cases h

/-- Both sessions find no row; the completed state is committed, then overwritten. -/
theorem completed_row_is_overwritten :
    ∃ p q row row', Pool.Reaches (semantics Bool) upsertRace p ∧ Pool.Reaches (semantics Bool) p q ∧
      p.state.committed raceKey = some row ∧ row.status = .completed ∧
      q.state.committed raceKey = some row' ∧ row'.status = .running := by
  refine ⟨_, _, _, _,
    .head ⟨true, .call rfl (.inr (.inl ⟨rfl, rfl, rfl⟩))⟩ <|
    .head ⟨false, .call rfl (.inr (.inl ⟨rfl, rfl, rfl⟩))⟩ <|
    .head ⟨false, .call rfl (.inr (.inl ⟨rfl, .inl rfl, not_clashes_empty _, rfl, rfl⟩))⟩ <|
    .head ⟨false, .call rfl (.inl ⟨rfl, rfl⟩)⟩ .refl,
    .head ⟨true, .call rfl (.inr (.inr (.inr ⟨_, rfl, .inl rfl, rfl, rfl, rfl⟩)))⟩ <|
    .head ⟨true, .call rfl (.inl ⟨rfl, rfl⟩)⟩ .refl, rfl, rfl, rfl, rfl⟩

/-- The other session selects after the commit: its statements are guarded and the row survives. -/
theorem completed_row_survives_later_upsert :
    ∃ p q row, Pool.Reaches (guardedSemantics Bool) upsertRace p ∧
      Pool.Reaches (guardedSemantics Bool) p q ∧ p.state.committed raceKey = some row ∧
      row.status = .completed ∧ q.state.committed raceKey = some row := by
  have hrun : ∃ p q row, Pool.Reaches (guardedSemantics Bool) upsertRace p ∧
      Pool.Reaches (guardedSemantics Bool) p q ∧ p.state.committed raceKey = some row ∧
      row.status = .completed := by
    refine ⟨_, _, _,
      .head ⟨false, .call rfl ⟨.inr (.inl ⟨rfl, rfl, rfl⟩), trivial⟩⟩ <|
      .head ⟨false, .call rfl ⟨.inr (.inl ⟨rfl, .inl rfl, not_clashes_empty _, rfl, rfl⟩),
        fun old h => by cases h⟩⟩ <|
      .head ⟨false, .call rfl ⟨.inl ⟨rfl, rfl⟩, trivial⟩⟩ .refl,
      .head ⟨true, .call rfl ⟨.inr (.inr ⟨_, rfl, .inl rfl, rfl, rfl⟩), trivial⟩⟩ .refl, rfl, rfl⟩
  obtain ⟨p, q, row, before, after, hrow, hcompleted⟩ := hrun
  exact ⟨p, q, row, before, after, hrow, hcompleted,
    terminal_rows_survive _ _ _ before after raceKey row hrow (by rw [hcompleted]; rfl)⟩

end WorkflowDatabase

end PersonalAssistant
