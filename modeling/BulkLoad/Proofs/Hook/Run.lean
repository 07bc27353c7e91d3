import BulkLoad.Hook.Run

/-!
# What the hooks of a phase have said

The hooks of a phase send their statements one after the other and wait for the answer to each.
`HookRun.Receives` lists what an answer makes of them (`receives_of_receive`). `Follows` says what
the events of a phase tell about where it stands: it holds when the phase begins (`follows_begin`),
and every answer keeps it (`follows_receive`). In particular a phase succeeds only after each of its
statements that are not blank has been sent in its turn and executed. A phase that owes no statement
any more neither sends one nor gets an answer to one (`silent_of_receive`).
-/

namespace BulkLoad

/-- The statement that an action sends. -/
def HookAction.statement? : HookAction → Option String
  | send statement => some statement
  | pause _ => none

/-- The statements that actions send, in order. -/
def statementsIn (actions : List HookAction) : List String :=
  actions.filterMap HookAction.statement?

/-- The statement that an event reports as sent. -/
def HookEvent.sent? : HookEvent → Option String
  | sent statement => some statement
  | _ => none

/-- The statement that an event reports as answered, and whether it was executed. -/
def HookEvent.answered? : HookEvent → Option (String × Bool)
  | answered statement succeeded => some (statement, succeeded)
  | _ => none

/-- The statements that were sent, in order. -/
def sentIn (events : List HookEvent) : List String := events.filterMap HookEvent.sent?

/-- The statements that were answered, in order, each with whether it was executed. -/
def answeredIn (events : List HookEvent) : List (String × Bool) :=
  events.filterMap HookEvent.answered?

@[simp] theorem sent_in_append (events more : List HookEvent) :
    sentIn (events ++ more) = sentIn events ++ sentIn more :=
  List.filterMap_append

@[simp] theorem answered_in_append (events more : List HookEvent) :
    answeredIn (events ++ more) = answeredIn events ++ answeredIn more :=
  List.filterMap_append

/-- Of all the statements of a phase those that were sent have been executed, one after the other,
and these are left. -/
structure Executed (all : List String) (events : List HookEvent) (rest : List String) : Prop where
  sent : sentIn events ++ rest = all
  answered : answeredIn events = (sentIn events).map fun statement => (statement, true)

/-- Each statement that was sent has been answered, in order. -/
def Answered (events : List HookEvent) : Prop :=
  (answeredIn events).map Prod.fst = sentIn events

/-- What the events of a phase tell about where it stands. -/
def HookProgress.Follows (all : List String) (events : List HookEvent) : HookProgress → Prop
  | .running (.acquiring rest) | .running (.pausing _ _ rest) =>
      Executed all events (statementsIn rest)
  | .running (.sending statement rest) =>
      sentIn events ++ statementsIn rest = all ∧
        ∃ before, sentIn events = before ++ [statement] ∧
          answeredIn events = before.map fun statement => (statement, true)
  | .running (.closing (.ok ())) | .ended (.ok ()) => Executed all events []
  | .running (.closing (.error _)) | .ended (.error _) => Answered events

/-- Whether a statement is on its way or still to be sent. -/
def HookRun.owesStatement : HookRun → Bool
  | acquiring rest | pausing _ _ rest => !(statementsIn rest).isEmpty
  | sending _ _ => true
  | closing _ => false

/-- Whether the hooks of a phase have got to a point at which a statement is on its way or still to
be sent. -/
def HookProgress.owesStatement : HookProgress → Bool
  | running run => run.owesStatement
  | ended _ => false

/-- Whether the hooks of a phase have ended. -/
def HookProgress.isEnded : HookProgress → Bool
  | .running _ => false
  | .ended _ => true

/-- Whether the hooks of a phase have ended well. -/
def HookProgress.succeeded : HookProgress → Bool
  | .ended (.ok ()) => true
  | .running _ | .ended (.error _) => false

/-! ## The statements of the hooks -/

/-- The statements of actions that follow one another. -/
theorem statements_in_append (actions more : List HookAction) :
    statementsIn (actions ++ more) = statementsIn actions ++ statementsIn more :=
  List.filterMap_append

/-- Actions that send statements send these. -/
theorem statements_in_send (statements : List String) :
    statementsIn (statements.map .send) = statements := by
  simp [statementsIn, List.filterMap_map, Function.comp_def, HookAction.statement?]

/-- The statements that a hook sends are those of its actions. -/
theorem statements_in_actions (hook : Hook) : statementsIn hook.actions = hook.sent := by
  rw [Hook.actions, statements_in_append, statements_in_send]
  split
  · exact List.append_nil _
  · exact List.append_nil _

/-- The statements that hooks send are those of their actions. -/
theorem statements_in_hooks (hooks : List Hook) :
    statementsIn (hooks.flatMap Hook.actions) = hooks.flatMap Hook.sent := by
  induction hooks with
  | nil => rfl
  | cons hook hooks ih =>
      rw [List.flatMap_cons, List.flatMap_cons, statements_in_append, ih, statements_in_actions]

/-! ## What an answer leads to -/

/-- What an answer makes of hooks that wait for it, and the events in between. -/
inductive HookRun.Receives (graph : String) (phase : HookPhase) :
    HookRun → Answer → HookProgress → List HookEvent → Prop where
  | refused (rest : List HookAction) (error : ClientError) :
      Receives graph phase (.acquiring rest) (.client (.error error))
        (.ended (.error (.clientPool graph error))) []
  | acquired (rest : List HookAction) :
      Receives graph phase (.acquiring rest) (.client (.ok ()))
        (advance true rest).1 (advance true rest).2
  | executed (statement : String) (rest : List HookAction) (reply : Reply)
      (h : failure? reply = none) :
      Receives graph phase (.sending statement rest) (.reply reply)
        (advance true rest).1 ([.answered statement true] ++ (advance true rest).2)
  | failed (statement : String) (rest : List HookAction) (reply : Reply) (message : String)
      (h : failure? reply = some message) :
      Receives graph phase (.sending statement rest) (.reply reply)
        (.running (.closing (.error (.hook graph phase statement message))))
        [.answered statement false, .clientClosing]
  | paused (client : Bool) (duration : Duration) (rest : List HookAction) :
      Receives graph phase (.pausing client duration rest) .elapsed
        (advance client rest).1 ([.paused duration] ++ (advance client rest).2)
  | unclosed (result : Except ManagerError Unit) (error : ClientError) :
      Receives graph phase (.closing result) (.client (.error error)) (.ended result)
        [.logged (closeLine graph phase error)]
  | closed (result : Except ManagerError Unit) :
      Receives graph phase (.closing result) (.client (.ok ())) (.ended result) []

/-- Every answer that hooks wait for leads on in one of these ways. -/
theorem HookRun.receives_of_receive {graph : String} {phase : HookPhase} {run : HookRun}
    {answer : Answer} {progress : HookProgress} {said : List HookEvent}
    (hreceive : run.receive graph phase answer = some (progress, said)) :
    Receives graph phase run answer progress said := by
  unfold HookRun.receive at hreceive
  split at hreceive
  case h_1 rest error =>
    cases hreceive
    exact .refused rest error
  case h_2 rest =>
    have hadvance : advance true rest = (progress, said) := Option.some.inj hreceive
    have hacquired : Receives graph phase (.acquiring rest) (.client (.ok ()))
        (advance true rest).1 (advance true rest).2 := .acquired rest
    rw [hadvance] at hacquired
    exact hacquired
  case h_3 statement rest reply =>
    cases hfailure : failure? reply with
    | none =>
        rw [hfailure] at hreceive
        cases hreceive
        exact .executed statement rest reply hfailure
    | some message =>
        rw [hfailure] at hreceive
        cases hreceive
        exact .failed statement rest reply message hfailure
  case h_4 client duration rest =>
    cases hreceive
    exact .paused client duration rest
  case h_5 result error =>
    cases hreceive
    exact .unclosed result error
  case h_6 result =>
    cases hreceive
    exact .closed result
  case h_7 => cases hreceive

/-! ## A phase follows its events -/

section

variable {all : List String} {events said : List HookEvent} {progress : HookProgress}
  {run : HookRun} {graph : String} {phase : HookPhase} {answer : Answer} {client : Bool}
  {rest : List HookAction}

/-- Statements that were executed have been answered. -/
theorem Executed.answered_all {left : List String} (h : Executed all events left) :
    Answered events := by
  unfold Answered
  rw [h.answered, List.map_map]
  exact List.map_id _

/-- What is said without a statement changes nothing about the statements that were executed. -/
theorem Executed.append {left : List String} (h : Executed all events left)
    (hsent : sentIn said = []) (hanswered : answeredIn said = []) :
    Executed all (events ++ said) left := by
  constructor
  · rw [sent_in_append, hsent, List.append_nil]
    exact h.sent
  · rw [answered_in_append, sent_in_append, hanswered, hsent, List.append_nil, List.append_nil]
    exact h.answered

/-- What is said without a statement changes nothing about the statements that were answered. -/
theorem Answered.append (h : Answered events) (hsent : sentIn said = [])
    (hanswered : answeredIn said = []) : Answered (events ++ said) := by
  unfold Answered
  rw [answered_in_append, sent_in_append, hanswered, hsent, List.append_nil, List.append_nil]
  exact h

/-- The end of a phase follows what was said if its result does. -/
theorem follows_finish {result : Except ManagerError Unit}
    (hresult : (HookProgress.ended result).Follows all events)
    (hfinish : HookRun.finish client result = (progress, said)) :
    progress.Follows all (events ++ said) := by
  cases client with
  | false =>
      cases hfinish
      rw [List.append_nil]
      exact hresult
  | true =>
      cases hfinish
      cases result with
      | ok => exact Executed.append hresult rfl rfl
      | error error => exact Answered.append hresult rfl rfl

/-- Going on after statements that were executed follows what was said. -/
theorem follows_advance (h : Executed all events (statementsIn rest))
    (hadvance : HookRun.advance client rest = (progress, said)) :
    progress.Follows all (events ++ said) := by
  cases rest with
  | nil =>
      have hdone : (HookProgress.ended (.ok ())).Follows all events := h
      exact follows_finish hdone hadvance
  | cons action rest =>
      cases action with
      | send statement =>
          cases hadvance
          have hsent : sentIn (events ++ [.sent statement]) = sentIn events ++ [statement] :=
            sent_in_append _ _
          refine ⟨?_, sentIn events, hsent, ?_⟩
          · rw [hsent, List.append_assoc]
            exact h.sent
          · rw [answered_in_append, h.answered]
            exact List.append_nil _
      | pause duration =>
          cases hadvance
          have hleft : Executed all events (statementsIn rest) := h
          exact hleft.append rfl rfl

/-- Hooks that begin follow what they say. -/
theorem follows_begin {hooks : List Hook} (hbegin : HookRun.begin hooks = (progress, said)) :
    progress.Follows (hooks.flatMap Hook.sent) said := by
  have hnothing : Executed (hooks.flatMap Hook.sent) []
      (statementsIn (hooks.flatMap Hook.actions)) :=
    ⟨statements_in_hooks hooks, rfl⟩
  simp only [HookRun.begin] at hbegin
  split at hbegin
  · cases hbegin
    show Executed (hooks.flatMap Hook.sent) ([] ++ [.clientAsked]) _
    exact hnothing.append rfl rfl
  · exact follows_advance hnothing hbegin

/-- With the statement that is on its way executed, all statements so far have been executed. -/
theorem executed_of_sending {statement : String}
    (h : (HookProgress.running (.sending statement rest)).Follows all events) :
    Executed all (events ++ [.answered statement true]) (statementsIn rest) := by
  obtain ⟨hall, before, hsent, hanswered⟩ := h
  have hsame : sentIn (events ++ [.answered statement true]) = sentIn events :=
    (sent_in_append _ _).trans (List.append_nil _)
  constructor
  · rw [hsame]
    exact hall
  · rw [hsame, answered_in_append, hanswered, hsent, List.map_append]
    rfl

/-- With the statement that is on its way failed, all statements so far have been answered. -/
theorem answered_of_sending {statement : String}
    (h : (HookProgress.running (.sending statement rest)).Follows all events) :
    Answered (events ++ [.answered statement false]) := by
  obtain ⟨-, before, hsent, hanswered⟩ := h
  have hsame : sentIn (events ++ [.answered statement false]) = sentIn events :=
    (sent_in_append _ _).trans (List.append_nil _)
  unfold Answered
  rw [hsame, hsent, answered_in_append, hanswered, List.map_append, List.map_map]
  exact congrArg (· ++ [statement]) (List.map_id before)

/-- Hooks that get an answer follow what has been said. -/
theorem follows_receive (h : (HookProgress.running run).Follows all events)
    (hreceive : run.receive graph phase answer = some (progress, said)) :
    progress.Follows all (events ++ said) := by
  cases HookRun.receives_of_receive hreceive with
  | refused =>
      -- Without a client nothing has been sent.
      rw [List.append_nil]
      exact Executed.answered_all h
  | acquired => exact follows_advance h rfl
  | executed =>
      rw [← List.append_assoc]
      exact follows_advance (executed_of_sending h) rfl
  | failed =>
      rw [List.append_cons]
      exact (answered_of_sending h).append rfl rfl
  | paused client duration rest =>
      have hpaused : Executed all (events ++ [.paused duration]) (statementsIn rest) :=
        Executed.append h rfl rfl
      rw [← List.append_assoc]
      exact follows_advance hpaused rfl
  | unclosed result => cases result with
    | ok => exact Executed.append h rfl rfl
    | error error => exact Answered.append h rfl rfl
  | closed result =>
      rw [List.append_nil]
      cases result <;> exact h

/-! ## A phase that owes no statement -/

/-- A phase that owes no statement has got an answer to each that it has sent. -/
theorem answered_of_owes_nothing (h : progress.Follows all events)
    (howes : progress.owesStatement = false) : Answered events := by
  unfold HookProgress.Follows at h
  split at h
  · exact h.answered_all
  · exact h.answered_all
  · cases howes
  · exact h.answered_all
  · exact h.answered_all
  · exact h
  · exact h

/-- Going on without a statement to send says nothing about statements, and owes none. -/
theorem silent_advance (hrest : statementsIn rest = [])
    (hadvance : HookRun.advance client rest = (progress, said)) :
    sentIn said = [] ∧ answeredIn said = [] ∧ progress.owesStatement = false := by
  cases rest with
  | nil =>
      cases client with
      | false | true =>
          cases hadvance
          exact ⟨rfl, rfl, rfl⟩
  | cons action rest =>
      cases action with
      | send statement => cases hrest
      | pause duration =>
          cases hadvance
          have hnone : statementsIn rest = [] := hrest
          refine ⟨rfl, rfl, ?_⟩
          show (!(statementsIn rest).isEmpty) = false
          rw [hnone]
          rfl

/-- Hooks that owe no statement say nothing about statements when they get an answer, and go on
owing none. -/
theorem silent_of_receive (howes : run.owesStatement = false)
    (hreceive : run.receive graph phase answer = some (progress, said)) :
    sentIn said = [] ∧ answeredIn said = [] ∧ progress.owesStatement = false := by
  cases HookRun.receives_of_receive hreceive with
  | refused | unclosed | closed => exact ⟨rfl, rfl, rfl⟩
  | acquired rest =>
      have hrest : statementsIn rest = [] := by
        simpa [HookRun.owesStatement] using howes
      exact silent_advance hrest rfl
  | executed | failed => cases howes
  | paused client duration rest =>
      have hrest : statementsIn rest = [] := by
        simpa [HookRun.owesStatement] using howes
      -- The pause itself says nothing about statements.
      obtain ⟨hsent, hanswered, hnext⟩ := silent_advance hrest rfl
      exact ⟨hsent, hanswered, hnext⟩

end

end BulkLoad
