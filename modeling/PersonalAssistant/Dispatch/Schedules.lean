import PersonalAssistant.Dispatch.Loop
import PersonalAssistant.Dispatch.RetrySpacing

/-!
# Schedules

A turn names who goes on; `play` lets the pool take the step that the phase of the worker asks for. A
turn that is not enabled leaves the pool as it is, so every schedule ends in a reachable pool, and a run
of the workers can be evaluated.
-/
namespace PersonalAssistant

open Lib InMemoryOutbox InMemoryReminderTransaction ReminderStores

variable {platform : Platform} {Worker : Type}

/-- Who goes on. A claim draws one token. -/
inductive Turn (Worker : Type) where
  | sweep (w : Worker) (principal : Principal) (now : Instant)
  | claim (w : Worker) (token : Uuid)
  | deliver (w : Worker) (approval : Option ApprovalGrant) (clock now : Instant)
  | send (w : Worker) (answer : ProviderAnswer)
  | record (w : Worker) (now : Instant)
  | resolve (principal : Principal) (messageId resolution : String) (now : Instant)

namespace DispatchState

variable (c : DispatchState platform)

/-- One token is fresh for at most one message, which nobody drew it for before. -/
def freshToken (token : Uuid) : Bool :=
  c.stores.outbox.messagesByKey.entries.length ≤ 1 &&
    c.stores.outbox.messagesByKey.entries.all (fun e => e.2.claimToken ≠ some (tokenText token)) &&
    c.claimed.all fun h => h.message.claimToken ≠ some (tokenText token)

theorem fresh_of_freshToken {token : Uuid} (h : c.freshToken token = true) :
    c.Fresh fun _ => token := by
  simp only [freshToken, Bool.and_eq_true, decide_eq_true_eq, List.all_eq_true] at h
  obtain ⟨⟨hlength, hstored⟩, hclaimed⟩ := h
  refine ⟨fun j k hj hk _ => ?_, fun _ j m hm => ?_, fun _ g hg => hclaimed g hg⟩
  · obtain ⟨m, hm⟩ := Option.ne_none_iff_exists'.mp hj
    obtain ⟨n, hn⟩ := Option.ne_none_iff_exists'.mp hk
    have hj : (j, m) ∈ c.stores.outbox.messagesByKey.entries := Dict.mem_entries.mpr hm
    have hk : (k, n) ∈ c.stores.outbox.messagesByKey.entries := Dict.mem_entries.mpr hn
    obtain hnil | ⟨e, he⟩ := Nat.le_one_iff_eq_zero_or_eq_one.mp hlength |>.imp List.length_eq_zero_iff.mp
      List.length_eq_one_iff.mp
    · simp [hnil] at hj
    · rw [he, List.mem_singleton] at hj hk
      exact congrArg Prod.fst (hj.trans hk.symm)
  · exact hstored (j, m) (Dict.mem_entries.mpr hm)

end DispatchState

namespace DispatchPool

variable [DecidableEq Worker]

open DispatchDueReminders in
/-- The step a turn stands for, where its worker is in the phase for it. -/
def turn (config : Worker → DispatchDueReminders) (c : DispatchPool platform Worker) :
    Turn Worker → DispatchPool platform Worker
  | .sweep w principal now =>
    match c.phase w with
    | .idle => c.advance w (c.state.after principal ((config w).sweepExpiredSending principal now))
        (c.result principal ((config w).sweepExpiredSending principal now))
        (fun _ => .swept principal now) fun _ => []
    | _ => c
  | .claim w token =>
    match c.phase w with
    | .swept principal now =>
      if c.state.freshToken token then
        c.advance w (c.state.afterClaim (config w) principal now fun _ => token)
          (c.result principal ((config w).claim principal now fun _ => token))
          (fun claimed => .looping principal now claimed.1) fun _ => []
      else c
    | _ => c
  | .deliver w approval clock now' =>
    match c.phase w with
    | .looping _ _ [] => c.move w .idle []
    | .looping principal now (message :: rest) =>
      match approves principal approval (attemptIdempotencyKey message) clock with
      | .error e =>
        if e.code?.isSome then
          c.advance w (c.state.after principal (releaseBeforeIo principal message now))
            (c.result principal (releaseBeforeIo principal message now))
            (fun _ => .looping principal now rest) fun _ => []
        else c
      | .ok () =>
        match notificationRequest message (attemptIdempotencyKey message) with
        | .error e =>
          if isMalformed e then
            c.advance w (c.state.after principal (recordMalformed principal message now'))
              (c.result principal (recordMalformed principal message now'))
              (fun _ => .looping principal now rest) fun _ => []
          else c
        | .ok request => c.advance w (c.state.afterConfirm ⟨principal, message, now⟩ now')
            (c.result principal (confirmSending principal message now'))
            (fun sending => .sending principal now request sending rest)
            fun sending => [.fenced sending.reference sending.attempts]
    | _ => c
  | .send w answer =>
    match c.phase w with
    | .sending principal now request message rest =>
      c.move w (.answered principal now request message (answer.accepted request) rest)
        [.used message.reference request.idempotencyKey]
    | _ => c
  | .record w now' =>
    match c.phase w with
    | .answered principal now _ message none rest =>
      c.advance w (c.state.after principal (recordUnknown principal message now'))
        (c.result principal (recordUnknown principal message now'))
        (fun _ => .looping principal now rest) fun _ => []
    | .answered principal now request message (some result) rest =>
      c.advance w (c.state.after principal (recordResult principal message result now'))
        (c.result principal (recordResult principal message result now'))
        (fun _ => .looping principal now rest) (recordedEvents request)
    | _ => c
  | .resolve principal messageId resolution now => {
      state := c.state.after principal (@resolveUncertain platform principal messageId resolution now)
      phase := c.phase
      log := match c.result principal (@resolveUncertain platform principal messageId resolution now) with
        | .ok final => resolvedEvents final ++ c.log
        | .error _ => c.log }

/-- The pool after a schedule. -/
def play (config : Worker → DispatchDueReminders) (c : DispatchPool platform Worker)
    (turns : List (Turn Worker)) : DispatchPool platform Worker := turns.foldl (turn config) c

variable {config : Worker → DispatchDueReminders} {admits : Block platform Unit → Prop}
  {c : DispatchPool platform Worker}

theorem Reachable.turn (h : Reachable config admits c) (t : Turn Worker) :
    Reachable config admits (c.turn config t) := by
  cases t with
  | sweep w principal now =>
    cases hphase : c.phase w with
    | idle =>
      simp only [DispatchPool.turn, hphase]
      exact h.step (.sweep hphase principal now)
    | _ => simpa only [DispatchPool.turn, hphase]
  | claim w token =>
    cases hphase : c.phase w with
    | swept =>
      simp only [DispatchPool.turn, hphase]
      split_ifs with hfresh
      · exact h.step (.claim hphase _ (c.state.fresh_of_freshToken hfresh))
      · exact h
    | _ => simpa only [DispatchPool.turn, hphase]
  | deliver w approval clock now' =>
    cases hphase : c.phase w with
    | looping principal now messages =>
      cases messages with
      | nil =>
        simp only [DispatchPool.turn, hphase]
        exact h.step (.finish hphase)
      | cons message rest =>
        cases happroval : approves principal approval (attemptIdempotencyKey message) clock with
        | error e =>
          simp only [DispatchPool.turn, hphase, happroval]
          split_ifs with hcaught
          · exact h.step (.release hphase approval clock happroval hcaught)
          · exact h
        | ok _ =>
          cases hrequest : notificationRequest message (attemptIdempotencyKey message) with
          | error e =>
            simp only [DispatchPool.turn, hphase, happroval, hrequest]
            split_ifs with hcaught
            · exact h.step (.malformed hphase approval clock happroval hrequest hcaught now')
            · exact h
          | ok request =>
            simp only [DispatchPool.turn, hphase, happroval, hrequest]
            exact h.step (.confirm hphase approval clock happroval hrequest now')
    | _ => simpa only [DispatchPool.turn, hphase]
  | send w answer =>
    cases hphase : c.phase w with
    | sending =>
      simp only [DispatchPool.turn, hphase]
      exact h.step (.send hphase answer)
    | _ => simpa only [DispatchPool.turn, hphase]
  | record w now' =>
    cases hphase : c.phase w with
    | answered principal now request message result rest =>
      cases result with
      | none =>
        simp only [DispatchPool.turn, hphase]
        exact h.step (.unknown hphase now')
      | some result =>
        simp only [DispatchPool.turn, hphase]
        exact h.step (.record hphase now')
    | _ => simpa only [DispatchPool.turn, hphase]
  | resolve principal messageId resolution now =>
    exact h.step (.resolve principal messageId resolution now)

/-- A schedule never leaves the reachable pools. -/
theorem Reachable.play (h : Reachable config admits c) (turns : List (Turn Worker)) :
    Reachable config admits (c.play config turns) := by
  induction turns generalizing c with
  | nil => exact h
  | cons t turns ih => exact ih (h.turn t)

end DispatchPool

/-! ### A late send -/

namespace TakeoverSample

open DispatchPool NotificationSample

/-- Both workers dispatch alike. -/
def config (_ : Bool) : DispatchDueReminders := worker

def after (seconds : Fin 1000) : Instant := ⟨seconds * 1000000, by unfold maxMicros; omega⟩

def approval (attempt : Nat) : ApprovalGrant where
  approvalId := "approval-1"
  tenantId := "tenant-1"
  principalId := "user-1"
  action := "notification.send"
  resource := attemptKey "out-1" attempt
  tier := .P5
  approved := true
  expiresAt := none
  requestHash := none
  trusted := true

def event : CloudEvent samplePlatform :=
  ⟨{ sampleFields with data := [("body", .str "Recordatorio"), ("channel", .str "whatsapp"),
      ("recipient", .str "573001112233")] }, by rfl⟩

/-- A reminder and its notification. -/
def creation : Block samplePlatform Unit := do
  let _ ← store (onScheduler (ReminderScheduler.scheduleBeforeEvent samplePlatform .sample schedule .zero))
  let _ ← store (onOutbox (InMemoryOutbox.add .sample event "key-1" none (some "out-1") .zero midnight))
  commit

theorem writesOnly_creation : WritesOnly creation := by
  refine .bind (ApprovedRun.through_write
    (c := .scheduleBeforeEvent .sample schedule .zero) rfl trivial) fun _ => ?_
  exact .bind (through_single (c := .add .sample event "key-1" none (some "out-1") .zero midnight) rfl
    trivial) fun _ => .commit

def firstToken : Uuid := ⟨String.ofList (List.replicate 32 '1'), by decide⟩

def secondToken : Uuid := ⟨String.ofList (List.replicate 32 '2'), by decide⟩

/-- One worker stops before its send; another takes over, and then the first goes on. -/
def turns : List (Turn Bool) := [
  .sweep false .sample (after 0),
  .claim false firstToken,
  .deliver false (some (approval 1)) (after 0) (after 0),
  .sweep true .sample (after 61),
  .resolve .sample "out-1" "retry" (after 61),
  .claim true secondToken,
  .deliver true (some (approval 2)) (after 61) (after 62),
  .send true .raised,
  .send false .raised]

def pool : DispatchPool samplePlatform Bool :=
  play config ⟨DispatchState.after ⟨.empty, [], []⟩ .sample creation, fun _ => .idle, []⟩ turns

theorem reachable : Reachable config (fun x => WritesOnly x) pool :=
  (Reachable.start.step (.write .sample writesOnly_creation)).play turns

end TakeoverSample

end PersonalAssistant
