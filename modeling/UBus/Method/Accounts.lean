import UBus.Method.Moves

/-!
# The accounts of method calls

What happens to a method call is kept in four accounts.  That of a connection
says who has made it, what is under way in either direction and whether it has
led to an execution; that of an execution says which call it is for.  A call
is accounted for by its connection and, once it has returned true, by an
execution.  A listening thread that runs a callback has not answered yet.
Every step keeps the accounts.
-/

namespace UBus.Remote

open FiniteMap

variable {json : JsonLibrary} {Object Environment : Type}

theorem nextFrame_nil : nextFrame [] = none := rfl

theorem nextFrame_wire {frame : Frame} (short : frame.data.length < 2 ^ 32) (padding : Padding) :
    nextFrame (wire frame padding) = some (frame, []) := by
  have whole := frameCode.next_codeword (⟨short, padding, rfl⟩ : IsWireFrame frame _) []
  rw [List.append_nil] at whole
  exact whole

/-- What a caller has sent to its provider: nothing, or the one frame of the
call. -/
def Carries (json : JsonLibrary) (call : MethodCall Object) (bytes : Bytes) : Prop :=
  bytes = [] ∨ ∃ name text padding, json.dump (call.callJson name) = some text ∧
    text.length < 2 ^ 32 ∧ bytes = wire (replyFrame .methodCall text) padding

/-- What a provider has sent to a caller: nothing, or one frame, from which the
caller only reads data that meet `property`. -/
def Answers (json : JsonLibrary) (property : Bytes → Prop) (bytes : Bytes) : Prop :=
  bytes = [] ∨ ∃ frame padding, frame.data.length < 2 ^ 32 ∧ bytes = wire frame padding ∧
    ∀ data, responseData json frame = some data → property data

namespace Answers

variable {property property' : Bytes → Prop} {bytes rest : Bytes} {frame : Frame}

theorem mono (answers : Answers json property bytes) (weaker : ∀ data, property data →
    property' data) : Answers json property' bytes := by
  rcases answers with isNil | ⟨frame, padding, short, isWire, reads⟩
  · exact Or.inl isNil
  · exact Or.inr ⟨frame, padding, short, isWire, fun data read => weaker data (reads data read)⟩

theorem next (answers : Answers json property bytes)
    (framed : nextFrame bytes = some (frame, rest)) :
    rest = [] ∧ ∀ data, responseData json frame = some data → property data := by
  rcases answers with rfl | ⟨frame', padding, short, rfl, reads⟩
  · simp [nextFrame_nil] at framed
  · rw [nextFrame_wire short, Option.some.injEq, Prod.mk.injEq] at framed
    obtain ⟨rfl, rfl⟩ := framed
    exact ⟨rfl, reads⟩

end Answers

/-- The callback is the one that the call asks for, of the same types, and gets
the argument as the call has serialized it. -/
structure Execution.IsFor (execution : Execution Object Environment) (call : MethodCall Object) :
    Prop where
  method : execution.method = call.method
  requestType : execution.info.requestType = call.request.id
  responseType : execution.info.responseType = call.response.id
  argument : execution.argument =
    execution.info.callback.request.deserialize (call.request.serialize call.argument)

/-- The callback has returned, and its response was serialized to `data`. -/
def Execution.Yields (execution : Execution Object Environment) (data : Bytes) : Prop :=
  ∃ answer, execution.response = some answer ∧
    execution.info.callback.response.serialize answer = data

theorem Execution.Yields.returned {execution : Execution Object Environment} {data : Bytes}
    (yields : execution.Yields data) : execution.response ≠ none := by
  obtain ⟨answer, isAnswer, -⟩ := yields
  simp [isAnswer]

namespace Bus

variable {bus next : Bus Object Environment}

structure Executed (bus : Bus Object Environment) (execution : Execution Object Environment) :
    Prop where
  connection : ∃ connection, bus.connections.lookup execution.socket = some connection ∧
    connection.task = execution.task ∧ connection.provider = execution.provider ∧
      connection.accepted = true
  task : ∃ task call, bus.tasks.lookup execution.task = some task ∧
    task.reqSocket = some execution.socket ∧ task.api = .callMethod call ∧ execution.IsFor call
  response : ∀ answer, execution.response = some answer →
    ∃ environment, execution.info.callback.callback environment execution.argument = some answer

structure Conversation (json : JsonLibrary) (bus : Bus Object Environment) (socket : Fd)
    (connection : Connection) : Prop where
  caller : ∃ task call, bus.tasks.lookup connection.task = some task ∧
    task.reqSocket = some socket ∧ task.api = .callMethod call ∧
      Carries json call connection.toProvider ∧
        (task.stage = .connected → connection.toProvider = [])
  unaccepted : connection.accepted = false → connection.toCaller = [] ∧
    ∀ execution ∈ bus.executions, execution.socket ≠ socket
  answers : Answers json (fun data => ∃ execution ∈ bus.executions,
    execution.socket = socket ∧ execution.Yields data) connection.toCaller

structure Accounted (bus : Bus Object Environment) (id : Nat) (task : Task Object Environment) :
    Prop where
  early : task.stage.IsEarly → task.reqSocket = none
  connection : ∀ socket, task.reqSocket = some socket →
    ∃ connection, bus.connections.lookup socket = some connection ∧ connection.task = id
  unreturned : task.stage ≠ .returned true → task.handed = []
  returned : task.stage = .returned true → ∀ call, task.api = .callMethod call →
    ∃ execution ∈ bus.executions, execution.task = id ∧
      ∃ data, execution.Yields data ∧ task.handed = [data]

structure Busy (bus : Bus Object Environment) (fd : Fd) (execution : Execution Object Environment) :
    Prop where
  member : execution ∈ bus.executions
  provider : execution.provider = fd
  response : execution.response = none
  unanswered : ∀ connection, bus.connections.lookup execution.socket = some connection →
    connection.toCaller = []

structure Consistent (json : JsonLibrary) (bus : Bus Object Environment) : Prop where
  connections : ∀ socket connection, bus.connections.lookup socket = some connection →
    bus.Conversation json socket connection
  executions : ∀ execution ∈ bus.executions, bus.Executed execution
  distinct : (bus.executions.map Execution.socket).Nodup
  tasks : ∀ id task, bus.tasks.lookup id = some task → bus.Accounted id task
  busy : ∀ fd execution, bus.executing fd = some execution → bus.Busy fd execution

/-- Calls stay with their connections, connections with their ends, and a
callback that has returned has returned. -/
structure Keeps (bus next : Bus Object Environment) : Prop where
  tasks : ∀ {id task}, bus.tasks.lookup id = some task → task.reqSocket ≠ none →
    ∃ later, next.tasks.lookup id = some later ∧ later.api = task.api ∧
      later.reqSocket = task.reqSocket ∧ (later.stage = .connected → task.stage = .connected)
  connections : ∀ {socket connection}, bus.connections.lookup socket = some connection →
    ∃ later, next.connections.lookup socket = some later ∧ later.task = connection.task ∧
      later.provider = connection.provider ∧ (connection.accepted = true → later.accepted = true)
  executions : ∀ execution ∈ bus.executions, execution.response ≠ none →
    execution ∈ next.executions

namespace Keeps

theorem refl (bus : Bus Object Environment) : bus.Keeps bus where
  tasks found _ := ⟨_, found, rfl, rfl, id⟩
  connections found := ⟨_, found, rfl, rfl, id⟩
  executions _ member _ := member

theorem setTask (keeps : bus.Keeps next) {id : Nat} {task later : Task Object Environment}
    (found : bus.tasks.lookup id = some task)
    (same : task.reqSocket ≠ none → later.api = task.api ∧ later.reqSocket = task.reqSocket ∧
      (later.stage = .connected → task.stage = .connected)) :
    bus.Keeps (next.setTask id later) where
  tasks {other task'} otherFound hasSocket := by
    rw [lookup_setTask]
    split_ifs with isId
    · subst isId
      obtain rfl := Option.some.inj (found.symm.trans otherFound)
      exact ⟨later, rfl, same hasSocket⟩
    · exact keeps.tasks otherFound hasSocket
  connections := keeps.connections
  executions := keeps.executions

theorem setConnection (keeps : bus.Keeps next) {socket : Fd} {connection later : Connection}
    (found : bus.connections.lookup socket = some connection)
    (same : later.task = connection.task ∧ later.provider = connection.provider ∧
      (connection.accepted = true → later.accepted = true)) :
    bus.Keeps (next.setConnection socket later) where
  tasks := keeps.tasks
  connections {other connection'} otherFound := by
    rw [lookup_setConnection]
    split_ifs with isSocket
    · subst isSocket
      obtain rfl := Option.some.inj (found.symm.trans otherFound)
      exact ⟨later, rfl, same⟩
    · exact keeps.connections otherFound
  executions := keeps.executions

theorem newConnection (keeps : bus.Keeps next) {socket : Fd} (fresh : socket ∉ bus.connections)
    (connection : Connection) : bus.Keeps (next.setConnection socket connection) where
  tasks := keeps.tasks
  connections {other connection'} otherFound := by
    rw [lookup_setConnection, if_neg]
    · exact keeps.connections otherFound
    · rintro rfl
      exact fresh (mem_of_lookup otherFound)
  executions := keeps.executions

theorem exchange {id : Nat} {socket : Fd} {task : Task Object Environment}
    {connection later : Connection} {stage : Stage} {handed : List Bytes}
    (found : bus.tasks.lookup id = some task)
    (connectionFound : bus.connections.lookup socket = some connection)
    (same : later.task = connection.task ∧ later.provider = connection.provider ∧
      (connection.accepted = true → later.accepted = true)) (notConnected : stage ≠ .connected) :
    bus.Keeps ((bus.setConnection socket later).setTask id
      { task with stage := stage, handed := handed }) := by
  apply ((refl bus).setConnection connectionFound same).setTask found
  exact fun _ => ⟨rfl, rfl, fun isConnected => absurd isConnected notConnected⟩

theorem execute (keeps : bus.Keeps next) (same : next.executions = bus.executions) (fd : Fd)
    (runtime : Runtime Object Environment) (execution : Execution Object Environment) :
    bus.Keeps (next.execute fd runtime execution) where
  tasks := keeps.tasks
  connections := keeps.connections
  executions other member _ := by
    have isMember : other ∈ next.executions := same ▸ member
    exact List.mem_append_left _ isMember

end Keeps

theorem Quiet.keeps (quiet : bus.Quiet next) : bus.Keeps next where
  tasks {id task} found hasSocket := by
    obtain ⟨later, laterFound⟩ := mem_iff.mp (quiet.kept id (mem_of_lookup found))
    rcases quiet.tasks id later laterFound with same | ⟨isNew, -⟩ | ⟨task', found', advances⟩
    · obtain rfl := Option.some.inj (found.symm.trans same)
      exact ⟨task, laterFound, rfl, rfl, fun stays => stays⟩
    · simp [found] at isNew
    · obtain rfl := Option.some.inj (found.symm.trans found')
      exact ⟨later, laterFound, advances.api, advances.reqSocket,
        fun isConnected => absurd isConnected advances.connected⟩
  connections {socket connection} found := by
    obtain ⟨later, laterFound⟩ := mem_iff.mp (quiet.connected socket (mem_of_lookup found))
    obtain ⟨connection', found', same, -⟩ := quiet.connections socket later laterFound
    obtain rfl := Option.some.inj (found.symm.trans found')
    rw [same] at laterFound
    exact ⟨_, laterFound, rfl, rfl, id⟩
  executions execution member _ := quiet.executions ▸ member

theorem Executed.keep {execution : Execution Object Environment}
    (executed : bus.Executed execution) (keeps : bus.Keeps next) : next.Executed execution := by
  obtain ⟨⟨connection, found, isTask, isProvider, accepted⟩, ⟨task, call, taskFound, isSocket,
    isCall, isFor⟩, response⟩ := executed
  obtain ⟨connection', found', sameTask, sameProvider, stays⟩ := keeps.connections found
  obtain ⟨task', taskFound', sameApi, sameSocket, -⟩ :=
    keeps.tasks taskFound (by simp [isSocket])
  exact ⟨⟨connection', found', sameTask.trans isTask, sameProvider.trans isProvider,
    stays accepted⟩, ⟨task', call, taskFound', sameSocket.trans isSocket, sameApi.trans isCall,
    isFor⟩, response⟩

theorem Accounted.keep {id : Nat} {task : Task Object Environment}
    (accounted : bus.Accounted id task) (keeps : bus.Keeps next) : next.Accounted id task where
  early := accounted.early
  connection socket isSocket := by
    obtain ⟨connection, found, isTask⟩ := accounted.connection socket isSocket
    obtain ⟨later, laterFound, sameTask, -⟩ := keeps.connections found
    exact ⟨later, laterFound, sameTask.trans isTask⟩
  unreturned := accounted.unreturned
  returned isReturned call isCall := by
    obtain ⟨execution, member, isTask, data, yields, handed⟩ :=
      accounted.returned isReturned call isCall
    exact ⟨execution, keeps.executions execution member yields.returned, isTask, data, yields,
      handed⟩

/-- A conversation in which nothing is said, apart from the caller reading. -/
theorem Conversation.keep {socket : Fd} {connection later : Connection}
    (conversation : bus.Conversation json socket connection) (keeps : bus.Keeps next)
    (same : later = { connection with broken := later.broken, toCaller := later.toCaller })
    (taken : later.toCaller = connection.toCaller ∨ later.toCaller = [])
    (unexecuted : connection.accepted = false →
      (∀ execution ∈ bus.executions, execution.socket ≠ socket) →
        ∀ execution ∈ next.executions, execution.socket ≠ socket) :
    next.Conversation json socket later where
  caller := by
    obtain ⟨task, call, found, isSocket, isCall, carries, unsent⟩ := conversation.caller
    obtain ⟨task', found', sameApi, sameSocket, connected⟩ := keeps.tasks found (by simp [isSocket])
    rw [same]
    exact ⟨task', call, found', sameSocket.trans isSocket, sameApi.trans isCall, carries,
      fun isConnected => unsent (connected isConnected)⟩
  unaccepted isUnaccepted := by
    rw [same] at isUnaccepted
    obtain ⟨silent, none⟩ := conversation.unaccepted isUnaccepted
    refine ⟨?_, unexecuted isUnaccepted none⟩
    rcases taken with isSame | isNil
    · rw [isSame, silent]
    · exact isNil
  answers := by
    rcases taken with isSame | isNil
    · rw [isSame]
      apply conversation.answers.mono
      intro data found
      obtain ⟨execution, member, isSocket, yields⟩ := found
      exact ⟨execution, keeps.executions execution member yields.returned, isSocket, yields⟩
    · exact Or.inl isNil

theorem Busy.setTask {fd : Fd} {execution : Execution Object Environment}
    (busy : bus.Busy fd execution) (id : Nat) (task : Task Object Environment) :
    (bus.setTask id task).Busy fd execution :=
  ⟨busy.member, busy.provider, busy.response, busy.unanswered⟩

theorem Busy.setConnection {fd socket : Fd} {execution : Execution Object Environment}
    {later : Connection} (busy : bus.Busy fd execution)
    (silent : execution.socket = socket → later.toCaller = []) :
    (bus.setConnection socket later).Busy fd execution := by
  refine ⟨busy.member, busy.provider, busy.response, fun connection found => ?_⟩
  rw [lookup_setConnection] at found
  split_ifs at found with isSocket
  · obtain rfl := Option.some.inj found
    exact silent isSocket
  · exact busy.unanswered connection found

theorem Consistent.quiet (consistent : bus.Consistent json) (quiet : bus.Quiet next) :
    next.Consistent json where
  connections socket later laterFound := by
    obtain ⟨connection, found, same, taken⟩ := quiet.connections socket later laterFound
    have conversation := consistent.connections socket connection found
    apply conversation.keep quiet.keeps same
    · rcases taken with isSame | ⟨frame, framed⟩
      · exact Or.inl isSame
      · exact Or.inr (conversation.answers.next framed).1
    · rw [quiet.executions]
      exact fun _ none => none
  executions execution member := by
    rw [quiet.executions] at member
    exact (consistent.executions execution member).keep quiet.keeps
  distinct := by
    rw [quiet.executions]
    exact consistent.distinct
  tasks id later laterFound := by
    rcases quiet.tasks id later laterFound with same | ⟨-, fd, api, rfl⟩ | ⟨task, found, advances⟩
    · exact (consistent.tasks id later same).keep quiet.keeps
    · exact ⟨fun _ => rfl, by simp, fun _ => rfl, by simp⟩
    · have accounted := (consistent.tasks id task found).keep quiet.keeps
      refine ⟨fun early => ?_, fun socket isSocket => ?_, fun _ => ?_,
        fun isReturned call isCall => ?_⟩
      · rw [advances.reqSocket]
        exact accounted.early (advances.early early)
      · rw [advances.reqSocket] at isSocket
        exact accounted.connection socket isSocket
      · rw [advances.handed]
        exact accounted.unreturned advances.notReturned
      · exact absurd isCall (advances.returned isReturned call)
  busy fd execution isExecuting := by
    have busy := consistent.busy fd execution (quiet.executing fd execution isExecuting)
    refine ⟨quiet.executions ▸ busy.member, busy.provider, busy.response, ?_⟩
    intro later laterFound
    obtain ⟨connection, found, -, taken⟩ := quiet.connections execution.socket later laterFound
    have silent := busy.unanswered connection found
    rcases taken with isSame | ⟨frame, framed⟩
    · rw [isSame, silent]
    · simp [silent, nextFrame_nil] at framed

theorem Consistent.connected (consistent : bus.Consistent json) {id : Nat} {socket providerFd : Fd}
    {task : Task Object Environment} {call : MethodCall Object}
    (found : bus.tasks.lookup id = some task) (isCall : task.api = .callMethod call)
    (early : task.stage.IsEarly) (fresh : socket ∉ bus.connections) :
    Consistent json ((bus.setConnection socket { task := id, provider := providerFd }).setTask id
      { task with stage := .connected, reqSocket := some socket }) := by
  have accounted := consistent.tasks id task found
  have unconnected : task.reqSocket = none := accounted.early early
  have keeps : bus.Keeps ((bus.setConnection socket
      { task := id, provider := providerFd }).setTask id
        { task with stage := .connected, reqSocket := some socket }) :=
    ((Keeps.refl bus).newConnection fresh _).setTask found fun hasSocket =>
      absurd unconnected hasSocket
  refine ⟨?_, ?_, consistent.distinct, ?_, ?_⟩
  · apply forall_insert
    · exact {
        caller := ⟨_, call, (lookup_setTask id id _).trans (if_pos rfl), rfl, isCall, Or.inl rfl,
          fun _ => rfl⟩
        unaccepted := fun _ => ⟨rfl, fun execution member isSocket => by
          obtain ⟨connection, connectionFound, -⟩ :=
            (consistent.executions execution member).connection
          rw [isSocket] at connectionFound
          exact fresh (mem_of_lookup connectionFound)⟩
        answers := Or.inl rfl }
    · intro other connection otherFound
      exact (consistent.connections other connection otherFound).keep keeps rfl (Or.inl rfl)
        fun _ none => none
  · intro execution member
    exact (consistent.executions execution member).keep keeps
  · apply forall_insert
    · refine ⟨False.elim, ?_, fun _ => accounted.unreturned (early.ne_returned true), by simp⟩
      rintro socket' isSocket
      obtain rfl := Option.some.inj isSocket
      exact ⟨_, (lookup_setConnection socket socket _).trans (if_pos rfl), rfl⟩
    · intro other task' otherFound
      exact (consistent.tasks other task' otherFound).keep keeps
  · intro fd execution isExecuting
    have busy := consistent.busy fd execution isExecuting
    exact (busy.setConnection fun _ => rfl).setTask id _

theorem Consistent.task_eq (consistent : bus.Consistent json) {id : Nat} {socket : Fd}
    {task : Task Object Environment} {connection : Connection}
    (found : bus.tasks.lookup id = some task) (isSocket : task.reqSocket = some socket)
    (connectionFound : bus.connections.lookup socket = some connection) : connection.task = id := by
  obtain ⟨connection', found', isTask⟩ :=
    (consistent.tasks id task found).connection socket isSocket
  obtain rfl := Option.some.inj (connectionFound.symm.trans found')
  exact isTask

theorem Consistent.called (consistent : bus.Consistent json) {id : Nat} {socket : Fd}
    {task : Task Object Environment} {call : MethodCall Object} {connection : Connection}
    {name text : Bytes} (found : bus.tasks.lookup id = some task)
    (isCall : task.api = .callMethod call) (isSocket : task.reqSocket = some socket)
    (connectionFound : bus.connections.lookup socket = some connection)
    (connected : task.stage = .connected) (dumped : json.dump (call.callJson name) = some text)
    (short : text.length < 2 ^ 32) (padding : Padding) :
    Consistent json ((bus.setConnection socket { connection with
        toProvider := connection.toProvider ++
          wire (replyFrame .methodCall text) padding }).setTask id
      { task with stage := .awaiting }) := by
  have accounted := consistent.tasks id task found
  have isTask := consistent.task_eq found isSocket connectionFound
  have conversation := consistent.connections socket connection connectionFound
  have keeps : bus.Keeps ((bus.setConnection socket { connection with
      toProvider := connection.toProvider ++
        wire (replyFrame .methodCall text) padding }).setTask id
          { task with stage := .awaiting }) :=
    Keeps.exchange found connectionFound ⟨rfl, rfl, fun stays => stays⟩ (by simp)
  have unsent : connection.toProvider = [] := by
    obtain ⟨task', call', found', -, -, -, unsent⟩ := conversation.caller
    rw [isTask] at found'
    obtain rfl := Option.some.inj (found.symm.trans found')
    exact unsent connected
  refine ⟨?_, ?_, consistent.distinct, ?_, ?_⟩
  · apply forall_insert
    · exact {
        caller := by
          rw [unsent, List.nil_append]
          exact ⟨_, call, (lookup_setTask id _ _).trans (if_pos isTask), isSocket, isCall,
            Or.inr ⟨name, text, padding, dumped, short, rfl⟩, by simp⟩
        unaccepted := conversation.unaccepted
        answers := conversation.answers }
    · intro other connection' otherFound
      exact (consistent.connections other connection' otherFound).keep keeps rfl (Or.inl rfl)
        fun _ none => none
  · intro execution member
    exact (consistent.executions execution member).keep keeps
  · apply forall_insert
    · have later := accounted.keep keeps
      exact ⟨False.elim, later.connection, fun _ => later.unreturned (by simp [connected]), by simp⟩
    · intro other task' otherFound
      exact (consistent.tasks other task' otherFound).keep keeps
  · intro fd execution isExecuting
    have busy := consistent.busy fd execution isExecuting
    apply Busy.setTask
    apply busy.setConnection
    rintro rfl
    exact busy.unanswered connection connectionFound

theorem Consistent.returned (consistent : bus.Consistent json) {id : Nat} {socket : Fd}
    {task : Task Object Environment} {connection : Connection} {frame : Frame} {rest data : Bytes}
    (found : bus.tasks.lookup id = some task) (isSocket : task.reqSocket = some socket)
    (connectionFound : bus.connections.lookup socket = some connection)
    (awaiting : task.stage = .awaiting)
    (framed : nextFrame connection.toCaller = some (frame, rest))
    (read : responseData json frame = some data) :
    Consistent json ((bus.setConnection socket { connection with toCaller := rest }).setTask id
      { task with stage := .returned true, handed := task.handed ++ [data] }) := by
  have accounted := consistent.tasks id task found
  have isTask := consistent.task_eq found isSocket connectionFound
  have conversation := consistent.connections socket connection connectionFound
  obtain ⟨isNil, reads⟩ := conversation.answers.next framed
  have keeps : bus.Keeps ((bus.setConnection socket { connection with toCaller := rest }).setTask id
      { task with stage := .returned true, handed := task.handed ++ [data] }) :=
    Keeps.exchange found connectionFound ⟨rfl, rfl, fun stays => stays⟩ (by simp)
  refine ⟨?_, ?_, consistent.distinct, ?_, ?_⟩
  · apply forall_insert
    · exact conversation.keep keeps rfl (Or.inr isNil) fun _ none => none
    · intro other connection' otherFound
      exact (consistent.connections other connection' otherFound).keep keeps rfl (Or.inl rfl)
        fun _ none => none
  · intro execution member
    exact (consistent.executions execution member).keep keeps
  · apply forall_insert
    · refine ⟨False.elim, (accounted.keep keeps).connection, by simp, fun _ _ _ => ?_⟩
      obtain ⟨execution, member, onSocket, yields⟩ := reads data read
      have ofTask : execution.task = id := by
        obtain ⟨connection', found', isTask', -⟩ :=
          (consistent.executions execution member).connection
        rw [onSocket] at found'
        obtain rfl := Option.some.inj (connectionFound.symm.trans found')
        exact isTask'.symm.trans isTask
      refine ⟨execution, member, ofTask, data, yields, ?_⟩
      rw [accounted.unreturned (by simp [awaiting]), List.nil_append]
    · intro other task' otherFound
      exact (consistent.tasks other task' otherFound).keep keeps
  · intro fd execution isExecuting
    have busy := consistent.busy fd execution isExecuting
    exact (busy.setConnection fun _ => isNil).setTask id _

/-- The callback that a listening thread starts when it has read a call. -/
structure Starts (fd : Fd) (runtime : Runtime Object Environment) (socket : Fd) (id : Nat)
    (call : MethodCall Object) (execution : Execution Object Environment) : Prop where
  registered : runtime.methodList.lookup execution.method = some execution.info
  task : execution.task = id
  socket : execution.socket = socket
  provider : execution.provider = fd
  response : execution.response = none
  isFor : execution.IsFor call

theorem accept_call (roundTrips : json.RoundTrips) {call : MethodCall Object} {name text : Bytes}
    (dumped : json.dump (call.callJson name) = some text) (short : text.length < 2 ^ 32)
    (bus : Bus Object Environment) (fd : Fd) (runtime : Runtime Object Environment) (socket : Fd)
    (connection : Connection) (padding : Padding) :
    bus.accept json fd runtime socket connection (replyFrame .methodCall text) padding =
        bus.setConnection socket { connection with
          toCaller := connection.toCaller ++
            wire (replyFrame .methodResponse SubscribeAnswer.invalid.replyText) padding } ∨
      ∃ execution, Starts fd runtime socket connection.task call execution ∧
        bus.accept json fd runtime socket connection (replyFrame .methodCall text) padding =
          (bus.setConnection socket connection).execute fd runtime execution := by
  have isCall : (replyFrame .methodCall text).messageType = FrameType.methodCall.code := rfl
  have dispatched := call.dispatch_text roundTrips dumped runtime.methodList
  rw [accept, if_pos isCall, replyFrame_data dumped short, dispatched]
  cases listed : runtime.methodList.lookup call.method with
  | none => exact Or.inl rfl
  | some info =>
      by_cases wrongRequest : info.requestType = call.request.id
      swap
      · left
        simp only [wrongRequest, ne_eq, not_false_eq_true, if_true]
      by_cases wrongResponse : info.responseType = call.response.id
      swap
      · left
        simp only [wrongRequest, wrongResponse, ne_eq, not_true_eq_false, not_false_eq_true,
          if_true, if_false]
      right
      simp only [wrongRequest, wrongResponse, ne_eq, not_true_eq_false, if_false]
      exact ⟨_, ⟨listed, rfl, rfl, rfl, rfl, ⟨rfl, wrongRequest, wrongResponse, rfl⟩⟩, rfl⟩

theorem Conversation.read {socket : Fd} {connection : Connection} {frame : Frame} {rest : Bytes}
    (conversation : bus.Conversation json socket connection)
    (framed : nextFrame connection.toProvider = some (frame, rest)) :
    ∃ task call name text, bus.tasks.lookup connection.task = some task ∧
      task.reqSocket = some socket ∧ task.api = .callMethod call ∧ task.stage ≠ .connected ∧
        json.dump (call.callJson name) = some text ∧ text.length < 2 ^ 32 ∧
          frame = replyFrame .methodCall text ∧ rest = [] := by
  obtain ⟨task, call, found, isSocket, isCall, carries, unsent⟩ := conversation.caller
  rcases carries with isNil | ⟨name, text, padding, dumped, short, isWire⟩
  · simp [isNil, nextFrame_nil] at framed
  · have fits : (replyFrame .methodCall text).data.length < 2 ^ 32 := by
      rwa [replyFrame_data dumped short]
    rw [isWire, nextFrame_wire fits, Option.some.injEq, Prod.mk.injEq] at framed
    refine ⟨task, call, name, text, found, isSocket, isCall, fun isConnected => ?_, dumped, short,
      framed.1.symm, framed.2.symm⟩
    have isNil := unsent isConnected
    rw [isWire] at isNil
    simp [wire, headerBytes] at isNil

theorem Consistent.take (consistent : bus.Consistent json) {socket : Fd} {connection : Connection}
    (found : bus.connections.lookup socket = some connection)
    (unaccepted : connection.accepted = false) {bytes : Bytes}
    (answers : Answers json (fun _ => False) bytes) :
    Consistent json (bus.setConnection socket
      { connection with accepted := true, toProvider := [], toCaller := bytes }) := by
  have conversation := consistent.connections socket connection found
  have unexecuted := (conversation.unaccepted unaccepted).2
  have keeps : bus.Keeps (bus.setConnection socket
      { connection with accepted := true, toProvider := [], toCaller := bytes }) := by
    apply (Keeps.refl bus).setConnection found
    exact ⟨rfl, rfl, fun _ => rfl⟩
  refine ⟨?_, ?_, consistent.distinct, ?_, ?_⟩
  · apply forall_insert
    · obtain ⟨task, call, taskFound, isSocket, isCall, -, -⟩ := conversation.caller
      exact {
        caller := ⟨task, call, taskFound, isSocket, isCall, Or.inl rfl, fun _ => rfl⟩
        unaccepted := by simp
        answers := answers.mono fun _ => False.elim }
    · intro other connection' otherFound
      exact (consistent.connections other connection' otherFound).keep keeps rfl (Or.inl rfl)
        fun _ none => none
  · intro execution member
    exact (consistent.executions execution member).keep keeps
  · intro id task taskFound
    exact (consistent.tasks id task taskFound).keep keeps
  · intro fd execution isExecuting
    have busy := consistent.busy fd execution isExecuting
    apply busy.setConnection
    intro isSocket
    exact absurd isSocket (unexecuted execution busy.member)

theorem Consistent.execute (consistent : bus.Consistent json) {fd socket : Fd}
    {runtime : Runtime Object Environment} {connection : Connection}
    {task : Task Object Environment} {call : MethodCall Object}
    {execution : Execution Object Environment}
    (found : bus.connections.lookup socket = some connection)
    (isProvider : connection.provider = fd) (accepted : connection.accepted = true)
    (silent : connection.toCaller = [])
    (unexecuted : ∀ execution ∈ bus.executions, execution.socket ≠ socket)
    (taskFound : bus.tasks.lookup connection.task = some task)
    (isSocket : task.reqSocket = some socket) (isCall : task.api = .callMethod call)
    (starts : Starts fd runtime socket connection.task call execution) :
    Consistent json (bus.execute fd runtime execution) := by
  have keeps : bus.Keeps (bus.execute fd runtime execution) :=
    (Keeps.refl bus).execute rfl fd runtime execution
  refine ⟨?_, ?_, ?_, ?_, ?_⟩
  · intro other connection' otherFound
    apply (consistent.connections other connection' otherFound).keep keeps rfl (Or.inl rfl)
    intro isUnaccepted none execution' member
    rcases List.mem_append.mp member with old | new
    · exact none execution' old
    · -- the connection of the call has been accepted
      obtain rfl := List.mem_singleton.mp new
      rw [starts.socket]
      rintro rfl
      obtain rfl := Option.some.inj (found.symm.trans otherFound)
      simp [accepted] at isUnaccepted
  · intro other member
    rcases List.mem_append.mp member with old | new
    · exact (consistent.executions other old).keep keeps
    · obtain rfl := List.mem_singleton.mp new
      exact {
        connection := ⟨connection, starts.socket ▸ found, starts.task.symm,
          isProvider.trans starts.provider.symm, accepted⟩
        task := ⟨task, call, starts.task ▸ taskFound, starts.socket ▸ isSocket, isCall,
          starts.isFor⟩
        response := by simp [starts.response] }
  · have fresh : execution.socket ∉ bus.executions.map Execution.socket := by
      rw [starts.socket]
      simpa using unexecuted
    have distinct := consistent.distinct.concat fresh
    rwa [List.concat_eq_append, ← List.map_singleton, ← List.map_append] at distinct
  · intro id task taskFound
    exact (consistent.tasks id task taskFound).keep keeps
  · intro other execution' isExecuting
    change (bus.setRuntime fd { runtime with executing := some execution }).executing other = _
      at isExecuting
    rw [executing_setRuntime] at isExecuting
    split_ifs at isExecuting with isFd
    · obtain rfl := Option.some.inj isExecuting
      refine ⟨List.mem_append_right _ (by simp), starts.provider.trans isFd.symm,
        starts.response, ?_⟩
      intro connection' found'
      rw [starts.socket] at found'
      obtain rfl := Option.some.inj (found.symm.trans found')
      exact silent
    · have busy := consistent.busy other execution' isExecuting
      exact ⟨List.mem_append_left _ busy.member, busy.provider, busy.response, busy.unanswered⟩

theorem Consistent.accepted (roundTrips : json.RoundTrips) (consistent : bus.Consistent json)
    {fd socket : Fd} {connection : Connection} {frame : Frame} {rest : Bytes}
    (found : bus.connections.lookup socket = some connection)
    (isProvider : connection.provider = fd) (unaccepted : connection.accepted = false)
    (framed : nextFrame connection.toProvider = some (frame, rest))
    (runtime : Runtime Object Environment) (padding : Padding) :
    Consistent json (bus.accept json fd runtime socket
      { connection with accepted := true, toProvider := rest } frame padding) := by
  have conversation := consistent.connections socket connection found
  obtain ⟨silent, unexecuted⟩ := conversation.unaccepted unaccepted
  obtain ⟨task, call, name, text, taskFound, isSocket, isCall, sent, dumped, short, rfl, rfl⟩ :=
    conversation.read framed
  rcases accept_call roundTrips dumped short bus fd runtime socket
    { connection with accepted := true, toProvider := [] } padding with
    refused | ⟨execution, starts, executed⟩
  · rw [refused, silent, List.nil_append]
    apply consistent.take found unaccepted
    have short' : (replyFrame .methodResponse
        SubscribeAnswer.invalid.replyText).data.length < 2 ^ 32 := by decide
    exact Or.inr ⟨_, padding, short', rfl, by simp [responseData_invalid roundTrips]⟩
  · rw [executed, silent]
    have taken := consistent.take found unaccepted (Or.inl rfl)
    exact taken.execute ((lookup_setConnection socket socket _).trans (if_pos rfl)) isProvider rfl
      rfl unexecuted taskFound isSocket isCall starts

/-- At most one callback is run for what arrives on a connection. -/
theorem Consistent.execution_eq (consistent : bus.Consistent json)
    {execution execution' : Execution Object Environment} (member : execution ∈ bus.executions)
    (member' : execution' ∈ bus.executions) (same : execution.socket = execution'.socket) :
    execution = execution' :=
  List.inj_on_of_nodup_map consistent.distinct member member' same

theorem Consistent.idle (consistent : bus.Consistent json)
    {execution : Execution Object Environment} (member : execution ∈ bus.executions)
    (returned : execution.response ≠ none) {fd : Fd} {current : Execution Object Environment}
    (isExecuting : bus.executing fd = some current) : current.socket ≠ execution.socket := by
  intro same
  have busy := consistent.busy fd current isExecuting
  obtain rfl := consistent.execution_eq busy.member member same
  exact returned busy.response

theorem respond_of_ne {execution : Execution Object Environment} {socket : Fd}
    (other : execution.socket ≠ socket) (answer : Object) :
    execution.respond socket answer = execution := if_neg other

theorem respond_socket (execution : Execution Object Environment) (socket : Fd) (answer : Object) :
    (execution.respond socket answer).socket = execution.socket := by
  unfold Execution.respond
  split <;> rfl

theorem Consistent.responded (consistent : bus.Consistent json) {fd : Fd}
    {runtime : Runtime Object Environment} {execution : Execution Object Environment}
    (isExecuting : bus.executing fd = some execution) {environment : Environment} {answer : Object}
    (isAnswer :
      execution.info.callback.callback environment execution.argument = some answer) :
    Consistent json (bus.respond fd runtime execution.socket answer) := by
  have busy := consistent.busy fd execution isExecuting
  have member : ∀ {other}, other ∈ bus.executions → other.socket ≠ execution.socket →
      other ∈ (bus.respond fd runtime execution.socket answer).executions := by
    intro other isMember elsewhere
    exact List.mem_map.mpr ⟨other, isMember, respond_of_ne elsewhere answer⟩
  have keeps : bus.Keeps (bus.respond fd runtime execution.socket answer) := {
    tasks := (Keeps.refl bus).tasks
    connections := (Keeps.refl bus).connections
    executions := fun other isMember returned => by
      apply member isMember
      intro same
      obtain rfl := consistent.execution_eq isMember busy.member same
      exact returned busy.response }
  refine ⟨?_, ?_, ?_, ?_, ?_⟩
  · intro socket connection found
    apply (consistent.connections socket connection found).keep keeps rfl (Or.inl rfl)
    intro _ none other isMember
    obtain ⟨before, isBefore, rfl⟩ := List.mem_map.mp isMember
    rw [respond_socket]
    exact none before isBefore
  · intro other isMember
    obtain ⟨before, isBefore, rfl⟩ := List.mem_map.mp isMember
    have executed := (consistent.executions before isBefore).keep keeps
    by_cases same : before.socket = execution.socket
    · obtain rfl := consistent.execution_eq isBefore busy.member same
      rw [Execution.respond, if_pos rfl]
      obtain ⟨task, call, found, isSocket, isCall, isFor⟩ := executed.task
      refine ⟨executed.connection, ⟨task, call, found, isSocket, isCall,
        ⟨isFor.method, isFor.requestType, isFor.responseType, isFor.argument⟩⟩, ?_⟩
      intro answer' isAnswer'
      obtain rfl := Option.some.inj isAnswer'
      exact ⟨environment, isAnswer⟩
    · rwa [respond_of_ne same]
  · have sockets : (bus.respond fd runtime execution.socket answer).executions.map
        Execution.socket = bus.executions.map Execution.socket := by
      simp [Bus.respond, Function.comp_def, respond_socket]
    rw [sockets]
    exact consistent.distinct
  · intro id task found
    exact (consistent.tasks id task found).keep keeps
  · intro other current isCurrent
    change (bus.setRuntime fd { runtime with executing := none }).executing other = _ at isCurrent
    rw [executing_setRuntime] at isCurrent
    split_ifs at isCurrent with isFd
    have busy' := consistent.busy other current isCurrent
    refine ⟨member busy'.member fun same => ?_, busy'.provider, busy'.response, busy'.unanswered⟩
    -- a callback belongs to one listening thread
    obtain rfl := consistent.execution_eq busy'.member busy.member same
    exact isFd (busy'.provider.symm.trans busy.provider)

theorem reply_of_lookup {socket : Fd} {connection : Connection}
    (found : bus.connections.lookup socket = some connection) (bytes : Bytes) :
    bus.reply socket bytes = bus.setConnection socket
      { connection with toCaller := connection.toCaller ++ bytes } := by
  simp only [Bus.reply, FiniteMap.modify, found]
  rfl

theorem Consistent.reply (consistent : bus.Consistent json)
    {execution : Execution Object Environment} {connection : Connection} {bytes : Bytes}
    (member : execution ∈ bus.executions) (returned : execution.response ≠ none)
    (found : bus.connections.lookup execution.socket = some connection)
    (silent : connection.toCaller = []) (answers : Answers json execution.Yields bytes) :
    Consistent json (bus.reply execution.socket bytes) := by
  have conversation := consistent.connections _ connection found
  obtain ⟨connection', found', -, -, accepted⟩ := (consistent.executions _ member).connection
  obtain rfl := Option.some.inj (found.symm.trans found')
  rw [reply_of_lookup found, silent, List.nil_append]
  have keeps : bus.Keeps (bus.setConnection execution.socket
      { connection with toCaller := bytes }) := by
    apply (Keeps.refl bus).setConnection found
    exact ⟨rfl, rfl, id⟩
  refine ⟨?_, ?_, consistent.distinct, ?_, ?_⟩
  · apply forall_insert
    · exact {
        caller := conversation.caller
        unaccepted := by simp [accepted]
        answers := answers.mono fun data yields => ⟨execution, member, rfl, yields⟩ }
    · intro other connection' otherFound
      exact (consistent.connections other connection' otherFound).keep keeps rfl (Or.inl rfl)
        fun _ none => none
  · intro other isMember
    exact (consistent.executions other isMember).keep keeps
  · intro id task taskFound
    exact (consistent.tasks id task taskFound).keep keeps
  · intro fd current isExecuting
    apply (consistent.busy fd current isExecuting).setConnection
    intro isSocket
    exact absurd isSocket (consistent.idle member returned isExecuting)

theorem Consistent.replied (roundTrips : json.RoundTrips) (consistent : bus.Consistent json)
    {fd : Fd} {runtime : Runtime Object Environment} {execution : Execution Object Environment}
    (isExecuting : bus.executing fd = some execution) {environment : Environment} {answer : Object}
    {text : Bytes}
    (isAnswer : execution.info.callback.callback environment execution.argument = some answer)
    (dumped : json.dump (okResponse (execution.info.callback.response.serialize answer)) =
      some text) (short : text.length < 2 ^ 32) (padding : Padding) :
    Consistent json ((bus.respond fd runtime execution.socket answer).reply execution.socket
      (wire (replyFrame .methodResponse text) padding)) := by
  have busy := consistent.busy fd execution isExecuting
  have responded : Consistent json (bus.respond fd runtime execution.socket answer) :=
    consistent.responded isExecuting isAnswer
  obtain ⟨connection, found, -⟩ := (consistent.executions execution busy.member).connection
  have member : { execution with response := some answer } ∈
      (bus.respond fd runtime execution.socket answer).executions :=
    List.mem_map.mpr ⟨execution, busy.member, if_pos rfl⟩
  apply responded.reply member (by simp) found (busy.unanswered connection found)
  have fits : (replyFrame .methodResponse text).data.length < 2 ^ 32 := by
    rwa [replyFrame_data dumped short]
  refine Or.inr ⟨_, padding, fits, rfl, fun data read => ?_⟩
  rw [responseData_ok roundTrips dumped short] at read
  exact ⟨answer, rfl, Option.some.inj read⟩

theorem Consistent.step (roundTrips : json.RoundTrips) (consistent : bus.Consistent json)
    {event : Event Object Environment} (moved : bus.step json event = some next) :
    next.Consistent json := by
  have executingOf : ∀ {fd runtime execution}, bus.running fd = some runtime →
      runtime.executing = some execution → bus.executing fd = some execution := by
    intro fd runtime execution isRunning isExecuting
    rw [executing, (running_eq_some.mp isRunning).1]
    exact isExecuting
  cases step_move moved with
  | quiet quiet => exact consistent.quiet quiet
  | connected found isCall early fresh => exact consistent.connected found isCall early fresh
  | called found isCall isSocket connectionFound connected dumped short =>
      exact consistent.called found isCall isSocket connectionFound connected dumped short _
  | accepted isRunning found isProvider unaccepted idle framed =>
      exact consistent.accepted roundTrips found isProvider unaccepted framed _ _
  | completed isRunning isExecuting isAnswer =>
      exact consistent.responded (executingOf isRunning isExecuting) isAnswer
  | replied isRunning isExecuting isAnswer dumped short =>
      exact consistent.replied roundTrips (executingOf isRunning isExecuting) isAnswer dumped
        short _
  | returned found isCall isSocket connectionFound awaiting framed read =>
      exact consistent.returned found isSocket connectionFound awaiting framed read

theorem Consistent.of_initial (initial : bus.Initial) : bus.Consistent json where
  connections := by simp [initial.connections]
  executions := by simp [initial.executions]
  distinct := by simp [initial.executions]
  tasks := by simp [initial.tasks]
  busy := by simp [executing, initial.runtimes]

theorem Consistent.of_reachable (roundTrips : json.RoundTrips)
    (reachable : (busSystem json Object Environment).Reachable bus) : bus.Consistent json :=
  reachable.invariant (Consistent json) (fun _ => of_initial)
    fun _ _ _ consistent moved => consistent.step roundTrips moved

end Bus

end UBus.Remote
