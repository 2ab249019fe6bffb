import UBus.Method.Accounts

/-!
# Method calls are answered by their callback

A method call that returns true has been executed once, by a callback that its
provider had registered with the two types of the call, and what it gets is
the serialized response of that execution.  Whether it returns or not, it is
executed at most once, and never by a callback of other types.
-/

namespace UBus.Remote

open FiniteMap

variable {json : JsonLibrary} {Object Environment : Type}

namespace Bus

variable {bus next : Bus Object Environment}

def executionsOf (bus : Bus Object Environment) (id : Nat) : List (Execution Object Environment) :=
  bus.executions.filter fun execution => execution.task = id

def reached (bus : Bus Object Environment) (id : Nat) : Option Fd :=
  (bus.tasks.lookup id).bind fun task => task.reqSocket.bind fun socket =>
    (bus.connections.lookup socket).map Connection.provider

/-- The provider had the method in its `method_list_` when its listening thread
read the call. -/
def RegisteredAtStart (json : JsonLibrary) (history : List (Event Object Environment))
    (execution : Execution Object Environment) : Prop :=
  ∃ earlier later before runtime padding,
    history = earlier ++ .listen execution.provider execution.socket padding :: later ∧
      (busSystem json Object Environment).Run earlier before ∧
        before.running execution.provider = some runtime ∧
          runtime.methodList.lookup execution.method = some execution.info

/-- An execution is older than a step, except for its response, or the step has
started it. -/
theorem Consistent.started (roundTrips : json.RoundTrips) (consistent : bus.Consistent json)
    {event : Event Object Environment} (moved : bus.step json event = some next)
    {execution : Execution Object Environment} (member : execution ∈ next.executions) :
    (∃ older ∈ bus.executions, execution = { older with response := execution.response }) ∨
      ∃ padding runtime, event = .listen execution.provider execution.socket padding ∧
        bus.running execution.provider = some runtime ∧
          runtime.methodList.lookup execution.method = some execution.info := by
  have responded : ∀ {socket : Fd} {answer : Object},
      execution ∈ bus.executions.map (fun older => older.respond socket answer) →
        ∃ older ∈ bus.executions, execution = { older with response := execution.response } := by
    intro socket answer isMember
    obtain ⟨older, isOlder, rfl⟩ := List.mem_map.mp isMember
    refine ⟨older, isOlder, ?_⟩
    unfold Execution.respond
    split <;> rfl
  cases step_move moved with
  | quiet quiet => exact Or.inl ⟨execution, quiet.executions ▸ member, rfl⟩
  | connected => exact Or.inl ⟨execution, member, rfl⟩
  | called => exact Or.inl ⟨execution, member, rfl⟩
  | @accepted fd socket padding runtime connection frame rest isRunning found isProvider unaccepted
      idle framed =>
      obtain ⟨task, call, name, text, -, -, -, -, dumped, short, rfl, rfl⟩ :=
        (consistent.connections socket connection found).read framed
      rcases accept_call roundTrips dumped short bus fd runtime socket
        { connection with accepted := true, toProvider := [] } padding with
        refused | ⟨started, starts, executed⟩
      · rw [refused] at member
        exact Or.inl ⟨execution, member, rfl⟩
      · rw [executed] at member
        rcases List.mem_append.mp member with old | new
        · exact Or.inl ⟨execution, old, rfl⟩
        · obtain rfl := List.mem_singleton.mp new
          rw [starts.provider, starts.socket]
          exact Or.inr ⟨padding, runtime, rfl, isRunning, starts.registered⟩
  | completed => exact Or.inl (responded member)
  | replied => exact Or.inl (responded member)
  | returned => exact Or.inl ⟨execution, member, rfl⟩

theorem registeredAtStart (roundTrips : json.RoundTrips) {history : List (Event Object Environment)}
    (run : (busSystem json Object Environment).Run history bus) :
    ∀ execution ∈ bus.executions, RegisteredAtStart json history execution := by
  induction run with
  | initial isInitial =>
      have none := isInitial.executions
      simp [none]
  | @step history bus next event run moved ih =>
      intro execution member
      have consistent := Consistent.of_reachable roundTrips ⟨history, run⟩
      rcases consistent.started roundTrips moved member with
        ⟨older, isOlder, same⟩ | ⟨padding, runtime, rfl, isRunning, registered⟩
      · obtain ⟨earlier, later, before, runtime, padding, historyEq, runBefore, isRunning,
          registered⟩ := ih older isOlder
        rw [same]
        exact ⟨earlier, later ++ [event], before, runtime, padding, by simp [historyEq], runBefore,
          isRunning, registered⟩
      · exact ⟨history, [], bus, runtime, padding, rfl, run, isRunning, registered⟩

theorem mem_executionsOf {id : Nat} {execution : Execution Object Environment} :
    execution ∈ bus.executionsOf id ↔ execution ∈ bus.executions ∧ execution.task = id := by
  simp [executionsOf]

/-- All executions of a call are started on its connection, so there is at most
one. -/
theorem Consistent.executionsOf_eq (consistent : bus.Consistent json) {id : Nat}
    {execution : Execution Object Environment} (member : execution ∈ bus.executionsOf id) :
    bus.executionsOf id = [execution] := by
  obtain ⟨isMember, isTask⟩ := mem_executionsOf.mp member
  have unique : ∀ other ∈ bus.executionsOf id, other = execution := by
    intro other otherMember
    obtain ⟨isOther, ofTask⟩ := mem_executionsOf.mp otherMember
    obtain ⟨task, call, found, isSocket, -⟩ := (consistent.executions execution isMember).task
    obtain ⟨task', call', found', isSocket', -⟩ := (consistent.executions other isOther).task
    rw [isTask] at found
    rw [ofTask] at found'
    obtain rfl := Option.some.inj (found.symm.trans found')
    exact consistent.execution_eq isOther isMember (Option.some.inj (isSocket'.symm.trans isSocket))
  have distinct : (bus.executionsOf id).Nodup :=
    (List.Nodup.of_map _ consistent.distinct).filter _
  apply List.perm_singleton.mp
  rw [List.perm_ext_iff_of_nodup distinct (List.nodup_singleton _)]
  intro other
  rw [List.mem_singleton]
  constructor
  · exact unique other
  · rintro rfl
    exact member

theorem Consistent.reached_eq (consistent : bus.Consistent json)
    {execution : Execution Object Environment} (member : execution ∈ bus.executions) :
    bus.reached execution.task = some execution.provider := by
  obtain ⟨connection, found, -, isProvider, -⟩ :=
    (consistent.executions execution member).connection
  obtain ⟨task, call, taskFound, isSocket, -⟩ := (consistent.executions execution member).task
  rw [reached, taskFound, Option.bind_some, isSocket, Option.bind_some, found, Option.map_some,
    isProvider]

/-- In every run, a method call is executed at most once, on the argument as it
was serialized, by a callback that its provider had registered with the types
of the call.  If it has returned true, it has been executed, and it has got the
response of the callback as it was serialized. -/
theorem calls_correct (roundTrips : json.RoundTrips) {history : List (Event Object Environment)}
    (run : (busSystem json Object Environment).Run history bus) {id : Nat}
    {task : Task Object Environment} {call : MethodCall Object}
    (made : bus.tasks.lookup id = some task) (isCall : task.api = .callMethod call) :
    (task.stage = .returned true → ∃ execution environment answer,
      bus.executionsOf id = [execution] ∧ bus.reached id = some execution.provider ∧
        execution.info.callback.callback environment execution.argument = some answer ∧
          execution.response = some answer ∧
            task.handed = [execution.info.callback.response.serialize answer]) ∧
      (bus.executionsOf id).length ≤ 1 ∧
        ∀ execution ∈ bus.executionsOf id,
          execution.IsFor call ∧ RegisteredAtStart json history execution := by
  have consistent := Consistent.of_reachable roundTrips ⟨history, run⟩
  refine ⟨fun returned => ?_, ?_, fun execution member => ?_⟩
  · obtain ⟨execution, member, isTask, data, ⟨answer, isAnswer, rfl⟩, handed⟩ :=
      (consistent.tasks id task made).returned returned call isCall
    obtain ⟨environment, ran⟩ := (consistent.executions execution member).response answer isAnswer
    exact ⟨execution, environment, answer,
      consistent.executionsOf_eq (mem_executionsOf.mpr ⟨member, isTask⟩),
      isTask ▸ consistent.reached_eq member, ran, isAnswer, handed⟩
  · by_cases executed : ∃ execution, execution ∈ bus.executionsOf id
    · obtain ⟨execution, member⟩ := executed
      rw [consistent.executionsOf_eq member, List.length_singleton]
    · have none : bus.executionsOf id = [] :=
        List.eq_nil_iff_forall_not_mem.mpr fun execution member => executed ⟨execution, member⟩
      simp [none]
  · obtain ⟨isMember, isTask⟩ := mem_executionsOf.mp member
    obtain ⟨task', call', found, -, isCall', isFor⟩ := (consistent.executions _ isMember).task
    rw [isTask] at found
    obtain rfl := Option.some.inj (made.symm.trans found)
    obtain rfl : call' = call := by simpa [isCall] using isCall'.symm
    exact ⟨isFor, registeredAtStart roundTrips run execution isMember⟩

end Bus

def Bus.started : Bus Bytes Unit where
  master := .started
  runtimes := ∅
  tasks := ∅
  connections := ∅
  executions := []

theorem Bus.started_initial : Bus.started.Initial :=
  ⟨System.started_initial, rfl, rfl, rfl, rfl⟩

def rawMessage (id : UInt32) : Message Bytes where
  id := id
  serialize := fun text => text
  deserialize := fun text => text

def sampleMethod : Api Bytes Unit :=
  .provideMethod (ascii "m") {
    request := rawMessage 11
    response := rawMessage 12
    callback := fun _ argument => some argument.reverse }

def sampleCall : MethodCall Bytes where
  method := ascii "m"
  argument := ascii "abc"
  request := rawMessage 11
  response := rawMessage 12

def providerReply : Frame :=
  replyFrame .unknown
    (requestText (Kind.found .method
      { name := ascii "a", listeningIp := ascii "0.0.0.0", listeningPort := 4000 }))

def Event.joins (fd : Fd) (name : String) (port : UInt16) : Event Bytes Unit :=
  .join fd (ascii name) port ⟨(127, 0, 0, 1), 50000⟩
    (requestText (initiation (ascii name) port)) okReply

/-- Provider "a" on socket 5 and caller "b" on socket 6 have joined, and both
have sent their requests. -/
def requesting : List (Event Bytes Unit) :=
  [.joins 5 "a" 4000, .joins 6 "b" 4001,
    .master .proceed, .master .proceed, .master .proceed,
    .master (.popNew (ascii "a")), .master (.popNew (ascii "b")), .master .proceed,
    .invoke 0 5 sampleMethod, .sendHeader 0 (0, 0, 0), .sendBody 0,
    .invoke 1 6 (.callMethod sampleCall), .sendHeader 1 (0, 0, 0), .sendBody 1]

/-- The master answers both, and the call goes over connection 7. -/
def calling : List (Event Bytes Unit) :=
  requesting ++ [.master (.poll (.ready [5, 6])),
    .serve 5 [] (some okReply) (0, 0, 0), .readHeader 0, .readBody 0,
    .serve 6 [] (some providerReply) (0, 0, 0), .readHeader 1, .readBody 1,
    .connect 1 7 5, .sendCall 1 (0, 0, 0), .listen 5 7 (0, 0, 0), .complete 5 () (0, 0, 0),
    .readResponse 1]

def Task.hasReturned (task : Task Bytes Unit) (response : Bytes) : Bool :=
  match task.stage, task.api with
  | .returned true, .callMethod _ => task.handed == [response]
  | _, _ => false

theorem Task.hasReturned_iff {task : Task Bytes Unit} {response : Bytes}
    (isReturned : task.hasReturned response = true) :
    task.stage = .returned true ∧ task.handed = [response] ∧
      ∃ call, task.api = .callMethod call := by
  unfold hasReturned at isReturned
  split at isReturned
  · rename_i stage isCall
    exact ⟨stage, by simpa using isReturned, _, isCall⟩
  · simp at isReturned

theorem calls_correct_sample : ∃ (bus : Bus Bytes Unit) (call : MethodCall Bytes)
    (execution : Execution Bytes Unit), bus.executionsOf 1 = [execution] ∧
      execution.IsFor call ∧ Bus.RegisteredAtStart JsonLibrary.plain calling execution ∧
        (execution.response.map execution.info.callback.response.serialize) =
          some (ascii "cba") := by
  obtain ⟨bus, run, returned⟩ :=
    (busSystem JsonLibrary.plain Bytes Unit).exists_run_of_steps calling
      (fun bus => (bus.tasks.lookup 1).any fun task => task.hasReturned (ascii "cba"))
      Bus.started_initial (by decide +kernel)
  obtain ⟨task, made, isReturned⟩ := (Option.any_eq_true _ _).mp returned
  obtain ⟨stage, handed, call, isCall⟩ := Task.hasReturned_iff isReturned
  obtain ⟨answered, -, executed⟩ :=
    Bus.calls_correct JsonLibrary.plain_roundTrips run made isCall
  obtain ⟨execution, environment, answer, only, -, -, isAnswer, isHanded⟩ := answered stage
  obtain ⟨isFor, registered⟩ := executed execution (by simp [only])
  refine ⟨bus, call, execution, only, isFor, registered, ?_⟩
  rw [isAnswer, Option.map_some]
  exact congrArg some (List.singleton_inj.mp (isHanded.symm.trans handed))

end UBus.Remote
