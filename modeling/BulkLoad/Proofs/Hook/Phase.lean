import BulkLoad.Proofs.Hook.Run
import Mathlib.Algebra.GroupWithZero.Nat

/-!
# The hooks of a phase from beginning to end

A `HookService` says how the client pool and the client of a phase behave. With every service the
hooks of a phase come to an end in exactly one way, and `HookService.Conducts` says what happens on
the way there: which client is acquired and closed, which statements are sent, how long the pauses
are, and how the result depends on all this (`ends_uniquely`).
-/

namespace BulkLoad

/-- How the client pool and the client of a phase behave: whether there is a client, how the
statements are answered one after the other, and how the client is closed. -/
structure HookService where
  client : Except ClientError Unit
  reply : Nat → Reply
  close : Except ClientError Unit

/-- How many statements an answer replies to. -/
def HookRun.replies : HookRun → Nat
  | sending _ _ => 1
  | acquiring _ | pausing _ _ _ | closing _ => 0

/-- The end of a client, as the events report it. -/
def HookEvent.IsClosing : HookEvent → Prop
  | clientClosing | logged _ => True
  | clientAsked | sent _ | answered _ _ | pausing _ | paused _ => False

/-- The pause that an event reports as over. -/
def HookEvent.paused? : HookEvent → Option Duration
  | paused duration => some duration
  | _ => none

/-- The nanoseconds of all the pauses. -/
def timeWaited (events : List HookEvent) : Nat :=
  ((events.filterMap HookEvent.paused?).map Duration.totalNanos).sum

/-- The nanoseconds for which hooks ask to wait. -/
def waits (hooks : List Hook) : Nat := (hooks.map fun hook => hook.wait.totalNanos).sum

/-- Whether some statement is not blank. -/
def NeedsClient (hooks : List Hook) : Prop :=
  ∃ hook ∈ hooks, ∃ statement ∈ hook.statements, Text.isBlank statement = false

/-- A statement that is not blank, among the hooks of a phase. -/
structure StatementPlace (hooks : List Hook) where
  before : List Hook
  hook : Hook
  behind : List Hook
  first : List String
  statement : String
  others : List String
  hooks_eq : hooks = before ++ hook :: behind
  sent_eq : hook.sent = first ++ statement :: others

/-- The statements that come before it. -/
def StatementPlace.earlier {hooks : List Hook} (place : StatementPlace hooks) : List String :=
  place.before.flatMap Hook.sent ++ place.first

namespace HookService

/-- What a service answers to hooks after so many statements. -/
def answer (service : HookService) (count : Nat) : HookRun → Answer
  | .acquiring _ => .client service.client
  | .sending _ _ => .reply (service.reply count)
  | .pausing _ _ _ => .elapsed
  | .closing _ => .client service.close

/-- From where they stand after so many statements, the hooks of a phase come to their end with
these events and this result. -/
inductive Serves (service : HookService) (graph : String) (phase : HookPhase) :
    Nat → HookProgress → List HookEvent → Except ManagerError Unit → Prop where
  | ended (count : Nat) (result : Except ManagerError Unit) :
      Serves service graph phase count (.ended result) [] result
  | answered {count : Nat} {run : HookRun} {progress : HookProgress}
      {said events : List HookEvent} {result : Except ManagerError Unit}
      (hreceive : run.receive graph phase (service.answer count run) = some (progress, said))
      (h : Serves service graph phase (count + run.replies) progress events result) :
      Serves service graph phase count (.running run) (said ++ events) result

/-- The hooks of a phase end with these events and this result. -/
def Ends (service : HookService) (graph : String) (phase : HookPhase) (hooks : List Hook)
    (events : List HookEvent) (result : Except ManagerError Unit) : Prop :=
  ∃ later, service.Serves graph phase 0 (HookRun.begin hooks).1 later result ∧
    events = (HookRun.begin hooks).2 ++ later

/-- The statement of this number is executed. -/
def Executes (service : HookService) (count : Nat) : Prop :=
  ∃ response, service.reply count = .ok response ∧ response.succeeded = true

/-- The phase fails with a statement. -/
structure FailsAt (service : HookService) (graph : String) (phase : HookPhase) {hooks : List Hook}
    (place : StatementPlace hooks) (events : List HookEvent) (error : ManagerError) : Prop where
  /-- The statements before it have been executed. -/
  executed : ∀ count < place.earlier.length, service.Executes count
  /-- It has failed, and the error names it. -/
  failed : ∃ message, HookRun.failure? (service.reply place.earlier.length) = some message ∧
    error = .hook graph phase place.statement message
  /-- It is the last that is sent. -/
  sent : sentIn events = place.earlier ++ [place.statement]
  /-- Nothing comes behind it but the end of the client. -/
  last : ∃ said closing, events = said ++ .answered place.statement false :: closing ∧
    ∀ event ∈ closing, event.IsClosing
  /-- Only the hooks before its own have been waited for. -/
  waited : timeWaited events = waits place.before

/-- What the hooks of a phase do with a service, and what comes of it. -/
structure Conducts (service : HookService) (graph : String) (phase : HookPhase)
    (hooks : List Hook) (events : List HookEvent) (result : Except ManagerError Unit) : Prop where
  /-- A client is asked for once, before anything else. -/
  asked : NeedsClient hooks → ∃ later, events = .clientAsked :: later ∧ .clientAsked ∉ later
  /-- No client is asked for without a statement to send. -/
  unasked : ¬ NeedsClient hooks → .clientAsked ∉ events
  /-- A client that there is has been closed once. -/
  closed : NeedsClient hooks → service.client = .ok () → events.count .clientClosing = 1
  /-- No client is closed if there is none. -/
  unclosed : ¬ (NeedsClient hooks ∧ service.client = .ok ()) → .clientClosing ∉ events
  /-- Without the client that is needed nothing happens. -/
  refused : ∀ error, NeedsClient hooks → service.client = .error error →
    events = [.clientAsked] ∧ result = .error (.clientPool graph error)
  /-- The statements that are sent are the first ones of those that are not blank, in order. -/
  sent : sentIn events <+: hooks.flatMap Hook.sent
  /-- The phase succeeds exactly if there is a client where one is needed, and all statements are
  sent and executed. -/
  succeeds : result = .ok () ↔ (NeedsClient hooks → service.client = .ok ()) ∧
    sentIn events = hooks.flatMap Hook.sent ∧
      ∀ count < (sentIn events).length, service.Executes count
  /-- With the client that is needed the phase fails with a statement only. -/
  fails : ∀ error, (NeedsClient hooks → service.client = .ok ()) → result = .error error →
    ∃ place : StatementPlace hooks, service.FailsAt graph phase place events error
  /-- A phase that succeeds has waited for all hooks. -/
  waited : result = .ok () → timeWaited events = waits hooks

/-! ## The way to the end -/

/-- The events of the end of a client, if there is one. -/
def closing (service : HookService) (graph : String) (phase : HookPhase) (client : Bool) :
    List HookEvent :=
  if client then
    .clientClosing ::
      match service.close with
      | .ok () => []
      | .error error => [.logged (HookRun.closeLine graph phase error)]
  else []

section

variable {service : HookService} {graph : String} {phase : HookPhase} {count : Nat}
  {run : HookRun} {progress : HookProgress} {events said : List HookEvent} {client : Bool}
  {result : Except ManagerError Unit} {actions rest : List HookAction} {statement : String}

/-- A service lets hooks end in one way only. -/
theorem Serves.unique {others : List HookEvent} {other : Except ManagerError Unit}
    (h : service.Serves graph phase count progress events result)
    (hother : service.Serves graph phase count progress others other) :
    others = events ∧ other = result := by
  induction h generalizing others other with
  | ended =>
      cases hother
      exact ⟨rfl, rfl⟩
  | answered hreceive _ ih =>
      cases hother with
      | answered hsame hother =>
          rw [hreceive] at hsame
          cases hsame
          obtain ⟨rfl, rfl⟩ := ih hother
          exact ⟨rfl, rfl⟩

/-- A phase that closes its client ends with the result that it has by then. -/
theorem serves_closing (service : HookService) (graph : String) (phase : HookPhase) (count : Nat)
    (result : Except ManagerError Unit) :
    ∃ later, service.Serves graph phase count (.running (.closing result)) later result ∧
      .clientClosing :: later = service.closing graph phase true := by
  obtain ⟨given, reply, close⟩ := service
  cases close with
  | ok =>
      have hclosed : Serves ⟨given, reply, .ok ()⟩ graph phase count
          (.running (.closing result)) ([] ++ []) result := .answered rfl (.ended _ result)
      exact ⟨_, hclosed, rfl⟩
  | error error =>
      have hclosed : Serves ⟨given, reply, .error error⟩ graph phase count
          (.running (.closing result))
          ([.logged (HookRun.closeLine graph phase error)] ++ []) result :=
        .answered rfl (.ended _ result)
      exact ⟨_, hclosed, rfl⟩

/-- The result does not depend on how the client is closed. -/
theorem Serves.of_close (h : service.Serves graph phase count progress events result)
    (close : Except ClientError Unit) :
    ∃ others, Serves { service with close } graph phase count progress others result := by
  induction h with
  | ended count result => exact ⟨[], .ended count result⟩
  | @answered count run progress said events result hreceive h ih =>
      obtain ⟨others, hothers⟩ := ih
      cases run with
      | acquiring | sending | pausing => exact ⟨_, .answered hreceive hothers⟩
      | closing closed =>
          obtain ⟨_, hclosed, -⟩ := serves_closing service graph phase count closed
          obtain ⟨-, rfl⟩ := hclosed.unique (.answered hreceive h)
          obtain ⟨_, hsame, -⟩ :=
            serves_closing { service with close } graph phase count result
          exact ⟨_, hsame⟩

/-- A statement fails exactly if it is not executed. -/
theorem executes_iff : service.Executes count ↔ HookRun.failure? (service.reply count) = none := by
  unfold Executes HookRun.failure?
  cases service.reply count with
  | error error => exact iff_of_false nofun nofun
  | ok response =>
      cases hsucceeded : response.succeeded with
      | true => exact iff_of_true ⟨response, rfl, hsucceeded⟩ (if_pos hsucceeded)
      | false =>
          have hfailed : ¬ response.succeeded = true := by
            rw [hsucceeded]
            exact Bool.false_ne_true
          show _ ↔ (if response.succeeded = true then none else some response.reason) = none
          rw [if_neg hfailed]
          refine iff_of_false ?_ nofun
          rintro ⟨_, ⟨⟩, hsame⟩
          exact hfailed hsame

end

end HookService

/-- The events of an action that has been done. -/
def HookAction.done : HookAction → List HookEvent
  | send statement => [.sent statement, .answered statement true]
  | pause duration => [.pausing duration, .paused duration]

namespace HookService

/-- Actions are all done, or up to a statement that fails. -/
inductive Course (service : HookService) (graph : String) (phase : HookPhase) (count : Nat)
    (actions : List HookAction) : List HookEvent → Except ManagerError Unit → Prop where
  | done (h : ∀ i < (statementsIn actions).length, service.Executes (count + i)) :
      Course service graph phase count actions (actions.flatMap HookAction.done) (.ok ())
  | failed (before : List HookAction) {later : List HookAction} {statement message : String}
      (hactions : actions = before ++ .send statement :: later)
      (h : ∀ i < (statementsIn before).length, service.Executes (count + i))
      (hfailure : HookRun.failure? (service.reply (count + (statementsIn before).length)) =
        some message) :
      Course service graph phase count actions
        (before.flatMap HookAction.done ++ [.sent statement, .answered statement false])
        (.error (.hook graph phase statement message))

section

variable {service : HookService} {graph : String} {phase : HookPhase} {count : Nat}
  {events said : List HookEvent} {client : Bool}
  {result : Except ManagerError Unit} {actions rest : List HookAction} {statement : String}

/-- A statement that is executed comes before the course of what is left. -/
theorem Course.send (hexecutes : service.Executes count)
    (h : service.Course graph phase (count + 1) rest said result) :
    service.Course graph phase count (.send statement :: rest)
      ((HookAction.send statement).done ++ said) result := by
  have hmore {n : Nat} (h : ∀ i < n, service.Executes (count + 1 + i)) :
      ∀ i < n + 1, service.Executes (count + i) := by
    intro i hi
    cases i with
    | zero => exact hexecutes
    | succ i =>
        rw [show count + (i + 1) = count + 1 + i by omega]
        exact h i (by omega)
  cases h with
  | done h => exact .done (hmore h)
  | failed before hactions h hfailure =>
      rw [← List.append_assoc]
      refine .failed (.send statement :: before) (congrArg _ hactions) (hmore h) ?_
      rw [← hfailure]
      congr 2
      show count + ((statementsIn before).length + 1) = _
      omega

/-- A pause comes before the course of what is left. -/
theorem Course.pause {duration : Duration}
    (h : service.Course graph phase count rest said result) :
    service.Course graph phase count (.pause duration :: rest)
      ((HookAction.pause duration).done ++ said) result := by
  cases h with
  | done h => exact .done h
  | failed before hactions h hfailure =>
      rw [← List.append_assoc]
      exact .failed (.pause duration :: before) (congrArg _ hactions) h hfailure

/-- A phase that is about to end closes its client. -/
theorem serves_finish (service : HookService) (graph : String) (phase : HookPhase) (count : Nat)
    (client : Bool) (result : Except ManagerError Unit) :
    ∃ later, service.Serves graph phase count (HookRun.finish client result).1 later result ∧
      (HookRun.finish client result).2 ++ later = service.closing graph phase client := by
  cases client with
  | false => exact ⟨[], .ended count result, rfl⟩
  | true => exact serves_closing service graph phase count result

/-- Hooks that go on take the course of the actions that are left, and close their client. -/
theorem serves_advance (service : HookService) (graph : String) (phase : HookPhase) (count : Nat)
    {client : Bool} (actions : List HookAction)
    (hclient : client = true ∨ statementsIn actions = []) :
    ∃ said result later, service.Course graph phase count actions said result ∧
      service.Serves graph phase count (HookRun.advance client actions).1 later result ∧
      (HookRun.advance client actions).2 ++ later =
        said ++ service.closing graph phase client := by
  induction actions generalizing count with
  | nil =>
      obtain ⟨later, hserves, hevents⟩ := serves_finish service graph phase count client (.ok ())
      exact ⟨[], .ok (), later, .done nofun, hserves, hevents⟩
  | cons action rest ih =>
      cases action with
      | send statement =>
          obtain rfl : client = true := hclient.resolve_right nofun
          cases hfailure : HookRun.failure? (service.reply count) with
          | none =>
              obtain ⟨said, result, later, hcourse, hserves, hevents⟩ := ih (count + 1) (.inl rfl)
              have hreceive : (HookRun.sending statement rest).receive graph phase
                  (service.answer count (.sending statement rest)) =
                    some ((HookRun.advance true rest).1,
                      .answered statement true :: (HookRun.advance true rest).2) := by
                simp only [answer, HookRun.receive, hfailure, Option.isNone_none]
              refine ⟨_, result, _, hcourse.send (executes_iff.mpr hfailure),
                .answered hreceive hserves, ?_⟩
              show .sent statement :: .answered statement true :: (_ ++ later) = _
              rw [hevents]
              rfl
          | some message =>
              obtain ⟨later, hserves, hevents⟩ := serves_finish service graph phase (count + 1) true
                (.error (.hook graph phase statement message))
              have hreceive : (HookRun.sending statement rest).receive graph phase
                  (service.answer count (.sending statement rest)) =
                    let ending :=
                      HookRun.finish true (.error (.hook graph phase statement message))
                    some (ending.1, .answered statement false :: ending.2) := by
                simp only [answer, HookRun.receive, hfailure, Option.isNone_some]
              refine ⟨_, _, _, .failed [] rfl nofun hfailure, .answered hreceive hserves, ?_⟩
              show .sent statement :: .answered statement false :: (_ ++ later) = _
              rw [hevents]
              rfl
      | pause duration =>
          obtain ⟨said, result, later, hcourse, hserves, hevents⟩ := ih count hclient
          have hreceive : (HookRun.pausing client duration rest).receive graph phase .elapsed =
            some ((HookRun.advance client rest).1,
              .paused duration :: (HookRun.advance client rest).2) := rfl
          refine ⟨_, result, _, hcourse.pause, .answered hreceive hserves, ?_⟩
          show .pausing duration :: .paused duration :: (_ ++ later) = _
          rw [hevents]
          rfl

end

end HookService

/-! ## The events of actions -/

/-- What the events of actions are about: statements and pauses. -/
def HookEvent.IsOfAction : HookEvent → Prop
  | sent _ | answered _ _ | pausing _ | paused _ => True
  | clientAsked | clientClosing | logged _ => False

/-- Actions that are done are reported by events of actions. -/
theorem is_of_done {actions : List HookAction} :
    ∀ event ∈ actions.flatMap HookAction.done, event.IsOfAction := by
  refine List.forall_mem_flatMap.mpr fun action _ => ?_
  cases action with
  | send | pause => exact List.forall_mem_cons.mpr ⟨trivial, List.forall_mem_singleton.mpr trivial⟩

/-- Actions that are done have sent their statements. -/
theorem sent_in_done (actions : List HookAction) :
    sentIn (actions.flatMap HookAction.done) = statementsIn actions := by
  induction actions with
  | nil => rfl
  | cons action rest ih =>
      rw [List.flatMap_cons, sent_in_append, ih]
      cases action with
      | send | pause => rfl

/-- The time of events that follow one another adds up. -/
theorem time_waited_append (events more : List HookEvent) :
    timeWaited (events ++ more) = timeWaited events + timeWaited more := by
  unfold timeWaited
  rw [List.filterMap_append, List.map_append, List.sum_append]

/-- Sending statements takes no pause. -/
theorem time_waited_send (statements : List String) :
    timeWaited ((statements.map HookAction.send).flatMap HookAction.done) = 0 := by
  induction statements with
  | nil => rfl
  | cons statement rest ih =>
      rw [List.map_cons, List.flatMap_cons, time_waited_append, ih]
      rfl

/-- A hook that is done has been waited for. -/
theorem time_waited_hook (hook : Hook) :
    timeWaited (hook.actions.flatMap HookAction.done) = hook.wait.totalNanos := by
  rw [Hook.actions, List.flatMap_append, time_waited_append, time_waited_send, Nat.zero_add]
  cases hzero : hook.wait.isZero with
  | false => exact Nat.add_zero _
  | true =>
      rw [Duration.totalNanos_of_is_zero hzero]
      rfl

/-- Hooks that are done have been waited for. -/
theorem time_waited_hooks (hooks : List Hook) :
    timeWaited ((hooks.flatMap Hook.actions).flatMap HookAction.done) = waits hooks := by
  induction hooks with
  | nil => rfl
  | cons hook hooks ih =>
      rw [List.flatMap_cons, List.flatMap_append, time_waited_append, time_waited_hook, ih]
      rfl

/-- Where the actions of a hook send a statement, they have sent statements before it only. -/
theorem sent_of_actions {hook : Hook} {before later : List HookAction} {statement : String}
    (h : hook.actions = before ++ .send statement :: later) :
    ∃ first others, hook.sent = first ++ statement :: others ∧ before = first.map .send := by
  have hpause : HookAction.send statement ∉
      if hook.wait.isZero then [] else [HookAction.pause hook.wait] := by
    split <;> simp
  rw [Hook.actions, List.append_eq_append_iff] at h
  obtain ⟨more, -, hmore⟩ | ⟨more, hsent, hmore⟩ := h
  · rw [hmore] at hpause
    exact absurd (List.mem_append_right _ List.mem_cons_self) hpause
  · cases more with
    | nil =>
        rw [List.nil_append] at hmore
        rw [← hmore] at hpause
        exact absurd List.mem_cons_self hpause
    | cons action more =>
        obtain ⟨rfl, -⟩ := List.cons.inj hmore
        obtain ⟨first, rest, hhook, rfl, hrest⟩ := List.map_eq_append_iff.mp hsent
        obtain ⟨same, others, rfl, hsame, -⟩ := List.map_eq_cons_iff.mp hrest
        obtain rfl := HookAction.send.inj hsame
        exact ⟨first, others, hhook, rfl⟩

/-- The place of a statement when a hook comes before the others. -/
def StatementPlace.cons {hooks : List Hook} (hook : Hook) (place : StatementPlace hooks) :
    StatementPlace (hook :: hooks) :=
  { place with before := hook :: place.before, hooks_eq := congrArg _ place.hooks_eq }

/-- A statement that the actions of hooks send has its place among the hooks. -/
theorem exists_place {hooks : List Hook} {before later : List HookAction} {statement : String}
    (h : hooks.flatMap Hook.actions = before ++ .send statement :: later) :
    ∃ place : StatementPlace hooks, place.statement = statement ∧
      before = place.before.flatMap Hook.actions ++ place.first.map .send := by
  induction hooks generalizing before with
  | nil => cases before <;> cases h
  | cons hook hooks ih =>
      have hlater {more : List HookAction}
          (h : hooks.flatMap Hook.actions = more ++ .send statement :: later) :
          ∃ place : StatementPlace (hook :: hooks), place.statement = statement ∧
            hook.actions ++ more =
              place.before.flatMap Hook.actions ++ place.first.map .send := by
        obtain ⟨place, hstatement, rfl⟩ := ih h
        exact ⟨place.cons hook, hstatement, (List.append_assoc _ _ _).symm⟩
      rw [List.flatMap_cons, List.append_eq_append_iff] at h
      obtain ⟨more, rfl, hmore⟩ | ⟨more, hactions, hmore⟩ := h
      · exact hlater hmore
      · cases more with
        | nil =>
            rw [List.append_nil] at hactions
            rw [← hactions, ← List.append_nil hook.actions]
            exact hlater hmore.symm
        | cons action more =>
            obtain ⟨rfl, -⟩ := List.cons.inj hmore
            obtain ⟨first, others, hsent, rfl⟩ := sent_of_actions hactions
            exact ⟨⟨[], hook, hooks, first, statement, others, rfl, hsent⟩, rfl, rfl⟩

/-! ## What happens on the way -/

/-- A statement that is not blank is one that the hooks send. -/
theorem needs_client_iff {hooks : List Hook} :
    NeedsClient hooks ↔ hooks.flatMap Hook.sent ≠ [] := by
  constructor
  · rintro ⟨hook, hhook, statement, hstatement, hblank⟩
    have hsent : statement ∈ hook.sent := by simp [Hook.sent, hstatement, hblank]
    exact List.ne_nil_of_mem (List.mem_flatMap.mpr ⟨hook, hhook, hsent⟩)
  · intro hne
    obtain ⟨statement, hmem⟩ := List.exists_mem_of_ne_nil _ hne
    obtain ⟨hook, hhook, hsent⟩ := List.mem_flatMap.mp hmem
    obtain ⟨hstatement, hblank⟩ := List.mem_filter.mp hsent
    exact ⟨hook, hhook, statement, hstatement, by simpa using hblank⟩

/-- Some action sends a statement exactly if there is a statement to send. -/
theorem any_send_iff {actions : List HookAction} :
    actions.any HookAction.isSend = true ↔ statementsIn actions ≠ [] := by
  induction actions with
  | nil => exact iff_of_false nofun fun h => h rfl
  | cons action rest ih =>
      cases action with
      | send statement => exact iff_of_true rfl (List.cons_ne_nil _ _)
      | pause duration => exact ih

namespace HookService

section

variable {service : HookService} {graph : String} {phase : HookPhase} {hooks : List Hook}
  {said : List HookEvent} {result : Except ManagerError Unit} {client : Bool}

/-- The events of a course are those of actions. -/
theorem Course.is_of_action {count : Nat} {actions : List HookAction}
    (h : service.Course graph phase count actions said result) :
    ∀ event ∈ said, event.IsOfAction := by
  cases h with
  | done => exact is_of_done
  | failed before =>
      refine List.forall_mem_append.mpr ⟨is_of_done, List.forall_mem_cons.mpr ⟨trivial, ?_⟩⟩
      exact List.forall_mem_singleton.mpr trivial

/-- The end of a client is about nothing else. -/
theorem is_closing_of_closing (service : HookService) (graph : String) (phase : HookPhase)
    (client : Bool) : ∀ event ∈ service.closing graph phase client, event.IsClosing := by
  obtain ⟨given, reply, close⟩ := service
  cases client with
  | false => nofun
  | true =>
      refine List.forall_mem_cons.mpr ⟨trivial, ?_⟩
      cases close with
      | ok => nofun
      | error error => exact List.forall_mem_singleton.mpr trivial

/-- A client that there is is closed once. -/
theorem count_closing (service : HookService) (graph : String) (phase : HookPhase)
    (client : Bool) :
    (service.closing graph phase client).count .clientClosing = if client then 1 else 0 := by
  obtain ⟨given, reply, close⟩ := service
  cases client with
  | false => rfl
  | true => cases close with
    | ok | error => rfl

/-- The end of a client sends no statement. -/
theorem sent_in_closing (service : HookService) (graph : String) (phase : HookPhase)
    (client : Bool) : sentIn (service.closing graph phase client) = [] := by
  obtain ⟨given, reply, close⟩ := service
  cases client with
  | false => rfl
  | true => cases close with
    | ok | error => rfl

/-- The end of a client takes no pause. -/
theorem time_waited_closing (service : HookService) (graph : String) (phase : HookPhase)
    (client : Bool) : timeWaited (service.closing graph phase client) = 0 := by
  obtain ⟨given, reply, close⟩ := service
  cases client with
  | false => rfl
  | true => cases close with
    | ok | error => rfl

/-- A course up to a failure has sent the statements before it and the one that fails. -/
theorem sent_in_failed (before : List HookAction) (statement : String) :
    sentIn (before.flatMap HookAction.done ++ [.sent statement, .answered statement false]) =
      statementsIn before ++ [statement] := by
  rw [sent_in_append, sent_in_done]
  rfl

/-- The statements that are sent in a course are the first ones of the actions. -/
theorem Course.sent_prefix {count : Nat} {actions : List HookAction}
    (h : service.Course graph phase count actions said result) :
    sentIn said <+: statementsIn actions := by
  cases h with
  | done => exact ⟨[], (List.append_nil _).trans (sent_in_done actions)⟩
  | @failed before later statement message hactions =>
      rw [sent_in_failed, hactions, statements_in_append]
      exact (List.prefix_append_right_inj _).mpr (List.prefix_append [statement] _)

/-- A course succeeds exactly if all statements are sent and executed. -/
theorem Course.ok_iff {actions : List HookAction}
    (h : service.Course graph phase 0 actions said result) :
    result = .ok () ↔ sentIn said = statementsIn actions ∧
      ∀ count < (sentIn said).length, service.Executes count := by
  cases h with
  | done h =>
      rw [sent_in_done]
      refine iff_of_true rfl ⟨rfl, fun count hcount => ?_⟩
      rw [← Nat.zero_add count]
      exact h count hcount
  | failed before _ _ hfailure =>
      refine iff_of_false nofun fun hall => ?_
      rw [sent_in_failed, List.length_append] at hall
      have hexecutes := executes_iff.mp (hall.2 _ (Nat.lt_succ_self _))
      rw [Nat.zero_add, hexecutes] at hfailure
      cases hfailure

/-- A course that does not succeed fails with a statement. -/
theorem Course.fails_at {error : ManagerError} {asked closing : List HookEvent}
    (h : service.Course graph phase 0 (hooks.flatMap Hook.actions) said (.error error))
    (hsent : sentIn (asked ++ (said ++ closing)) = sentIn said)
    (htime : timeWaited (asked ++ (said ++ closing)) = timeWaited said)
    (hclosing : ∀ event ∈ closing, event.IsClosing) :
    ∃ place : StatementPlace hooks,
      service.FailsAt graph phase place (asked ++ (said ++ closing)) error := by
  cases h with
  | failed before hactions h hfailure =>
      obtain ⟨place, rfl, hbefore⟩ := exists_place hactions
      have hearlier : statementsIn before = place.earlier := by
        rw [hbefore, statements_in_append, statements_in_hooks, statements_in_send,
          StatementPlace.earlier]
      have hwaited : timeWaited (before.flatMap HookAction.done) = waits place.before := by
        rw [hbefore, List.flatMap_append, time_waited_append, time_waited_hooks, time_waited_send,
          Nat.add_zero]
      rw [hearlier, Nat.zero_add] at hfailure
      rw [hearlier] at h
      refine ⟨place, fun count hcount => ?_, ⟨_, hfailure, rfl⟩, ?_, ?_, ?_⟩
      · rw [← Nat.zero_add count]
        exact h count hcount
      · rw [hsent, sent_in_failed, hearlier]
      · refine ⟨asked ++ (before.flatMap HookAction.done ++ [.sent place.statement]), closing, ?_,
          hclosing⟩
        simp only [List.append_assoc, List.cons_append, List.nil_append]
      · rw [htime, time_waited_append, hwaited]
        rfl

/-- The question for a client, if one is needed. -/
def asking (client : Bool) : List HookEvent := if client then [.clientAsked] else []

/-- The course of all actions, with a client exactly if one is needed, is what hooks do. -/
theorem conducts_of_course (hneeds : NeedsClient hooks ↔ client = true)
    (hgiven : client = true → service.client = .ok ())
    (hcourse : service.Course graph phase 0 (hooks.flatMap Hook.actions) said result) :
    service.Conducts graph phase hooks
      (asking client ++ (said ++ service.closing graph phase client)) result := by
  have hsent : sentIn (asking client ++ (said ++ service.closing graph phase client)) =
      sentIn said := by
    rw [sent_in_append, sent_in_append, sent_in_closing, List.append_nil]
    cases client <;> rfl
  have htime : timeWaited (asking client ++ (said ++ service.closing graph phase client)) =
      timeWaited said := by
    rw [time_waited_append, time_waited_append, time_waited_closing, Nat.add_zero]
    cases client <;> exact Nat.zero_add _
  have hall : statementsIn (hooks.flatMap Hook.actions) = hooks.flatMap Hook.sent :=
    statements_in_hooks hooks
  have hasked : .clientAsked ∉ said ++ service.closing graph phase client := fun hmem =>
    (List.mem_append.mp hmem).elim (hcourse.is_of_action _)
      (is_closing_of_closing service graph phase client _)
  have hclosed : .clientClosing ∉ said := hcourse.is_of_action _
  constructor
  case asked =>
    intro h
    obtain rfl := hneeds.mp h
    exact ⟨_, rfl, hasked⟩
  case unasked =>
    intro h
    obtain rfl : client = false := Bool.eq_false_iff.mpr fun htrue => h (hneeds.mpr htrue)
    exact hasked
  case closed =>
    intro h _
    obtain rfl := hneeds.mp h
    rw [List.count_append, List.count_append, count_closing, List.count_eq_zero.mpr hclosed]
    rfl
  case unclosed =>
    intro h
    obtain rfl : client = false :=
      Bool.eq_false_iff.mpr fun htrue => h ⟨hneeds.mpr htrue, hgiven htrue⟩
    show _ ∉ said ++ []
    rw [List.append_nil]
    exact hclosed
  case refused =>
    intro error h herror
    rw [hgiven (hneeds.mp h)] at herror
    cases herror
  case sent =>
    rw [hsent, ← hall]
    exact hcourse.sent_prefix
  case succeeds =>
    rw [hsent, ← hall, hcourse.ok_iff]
    exact ⟨fun h => ⟨fun hneed => hgiven (hneeds.mp hneed), h⟩, And.right⟩
  case fails =>
    rintro error - rfl
    exact hcourse.fails_at hsent htime (is_closing_of_closing service graph phase client)
  case waited =>
    rintro rfl
    rw [htime]
    cases hcourse with
    | done => exact time_waited_hooks hooks

/-- Without the client that is needed the hooks do nothing. -/
theorem conducts_of_refused {error : ClientError} (hneeds : NeedsClient hooks)
    (hrefused : service.client = .error error) :
    service.Conducts graph phase hooks [.clientAsked] (.error (.clientPool graph error)) := by
  have hno : service.client ≠ .ok () := by
    rw [hrefused]
    nofun
  constructor
  case asked => exact fun _ => ⟨[], rfl, List.not_mem_nil⟩
  case unasked => exact fun h => absurd hneeds h
  case closed => exact fun _ h => absurd h hno
  case unclosed => exact fun _ => by decide
  case refused =>
    intro other _ hother
    rw [hrefused] at hother
    cases hother
    exact ⟨rfl, rfl⟩
  case sent => exact List.nil_prefix
  case succeeds => exact iff_of_false nofun fun h => hno (h.1 hneeds)
  case fails => exact fun _ h => absurd (h hneeds) hno
  case waited => nofun

/-- Hooks end as they do from where they begin. -/
theorem ends_of_begin {start : HookProgress × List HookEvent} {later : List HookEvent}
    (hbegin : HookRun.begin hooks = start)
    (h : service.Serves graph phase 0 start.1 later result) :
    service.Ends graph phase hooks (start.2 ++ later) result := by
  refine ⟨later, ?_, ?_⟩ <;> rw [hbegin]
  exact h

/-- With every service the hooks of a phase come to an end, and in doing so conduct themselves as
described. -/
theorem exists_end (service : HookService) (graph : String) (phase : HookPhase)
    (hooks : List Hook) :
    ∃ events result, service.Ends graph phase hooks events result ∧
      service.Conducts graph phase hooks events result := by
  have hneeds : NeedsClient hooks ↔ (hooks.flatMap Hook.actions).any HookAction.isSend = true := by
    rw [needs_client_iff, any_send_iff, statements_in_hooks]
  cases hsend : (hooks.flatMap Hook.actions).any HookAction.isSend with
  | false =>
      have hbegin : HookRun.begin hooks = HookRun.advance false (hooks.flatMap Hook.actions) :=
        if_neg (Bool.eq_false_iff.mp hsend)
      have hnone : statementsIn (hooks.flatMap Hook.actions) = [] :=
        Classical.not_not.mp fun hne => Bool.eq_false_iff.mp hsend (any_send_iff.mpr hne)
      obtain ⟨said, result, later, hcourse, hserves, hevents⟩ :=
        serves_advance service graph phase 0 (hooks.flatMap Hook.actions) (.inr hnone)
      rw [hsend] at hneeds
      have hends := ends_of_begin hbegin hserves
      rw [hevents] at hends
      exact ⟨_, result, hends, conducts_of_course hneeds nofun hcourse⟩
  | true =>
      have hbegin : HookRun.begin hooks =
          (.running (.acquiring (hooks.flatMap Hook.actions)), [.clientAsked]) := if_pos hsend
      rw [hsend] at hneeds
      cases hclient : service.client with
      | error error =>
          have hreceive : (HookRun.acquiring (hooks.flatMap Hook.actions)).receive graph phase
              (.client service.client) =
                some (.ended (.error (.clientPool graph error)), []) := by
            rw [hclient]
            rfl
          exact ⟨_, _, ends_of_begin hbegin (.answered hreceive (.ended _ _)),
            conducts_of_refused (hneeds.mpr rfl) hclient⟩
      | ok =>
          obtain ⟨said, result, later, hcourse, hserves, hevents⟩ :=
            serves_advance service graph phase 0 (hooks.flatMap Hook.actions) (.inl rfl)
          have hreceive : (HookRun.acquiring (hooks.flatMap Hook.actions)).receive graph phase
              (.client service.client) =
                some ((HookRun.advance true (hooks.flatMap Hook.actions)).1,
                  (HookRun.advance true (hooks.flatMap Hook.actions)).2) := by
            rw [hclient]
            rfl
          have hends := ends_of_begin hbegin (.answered hreceive hserves)
          rw [hevents] at hends
          exact ⟨_, result, hends, conducts_of_course hneeds (fun _ => hclient) hcourse⟩

end

/-- With every service the hooks of a phase come to exactly one end. On the way there they conduct
themselves as described, and their result remains the same however the client is closed. -/
theorem ends_uniquely (service : HookService) (graph : String) (phase : HookPhase)
    (hooks : List Hook) :
    ∃ events result, service.Ends graph phase hooks events result ∧
      (∀ others other, service.Ends graph phase hooks others other →
        others = events ∧ other = result) ∧
      service.Conducts graph phase hooks events result ∧
      ∀ close others other, Ends { service with close } graph phase hooks others other →
        other = result := by
  obtain ⟨events, result, hends, hconducts⟩ := exists_end service graph phase hooks
  obtain ⟨later, hserves, hevents⟩ := hends
  refine ⟨events, result, ⟨later, hserves, hevents⟩, ?_, hconducts, ?_⟩
  · rintro _ _ ⟨others, hother, rfl⟩
    obtain ⟨rfl, rfl⟩ := hserves.unique hother
    exact ⟨hevents.symm, rfl⟩
  · rintro close _ _ ⟨others, hother, rfl⟩
    obtain ⟨_, hsame⟩ := hserves.of_close close
    exact (hsame.unique hother).2

end HookService

end BulkLoad
