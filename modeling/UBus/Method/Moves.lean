import UBus.Method.State

/-!
# The moves of the bus

Most events have nothing to do with what lies between a caller and its
provider.  One inversion of the step function sets them apart from the six
that have, and says of these exactly what they change.
-/

namespace UBus.Remote

open FiniteMap

variable {json : JsonLibrary} {Object Environment : Type}

def Stage.IsEarly : Stage → Prop
  | .sendingHeader | .sendingBody _ | .readingHeader | .readingBody _ | .connecting _ => True
  | _ => False

theorem Stage.IsEarly.ne_connected {stage : Stage} (early : stage.IsEarly) :
    stage ≠ .connected := by
  rintro rfl
  exact early

theorem Stage.IsEarly.ne_returned {stage : Stage} (early : stage.IsEarly) (value : Bool) :
    stage ≠ .returned value := by
  rintro rfl
  exact early

theorem Runtime.write_executing (runtime : Runtime Object Environment) (bytes : Bytes) :
    (runtime.write bytes).executing = runtime.executing := by
  unfold Runtime.write
  split <;> rfl

/-- A step of an API call in which its provider has no part.  A method call
does not return true in such a step. -/
structure Task.Advances (task later : Task Object Environment) : Prop where
  api : later.api = task.api
  reqSocket : later.reqSocket = task.reqSocket
  handed : later.handed = task.handed
  early : later.stage.IsEarly → task.stage.IsEarly
  connected : later.stage ≠ .connected
  notReturned : task.stage ≠ .returned true
  returned : later.stage = .returned true → ∀ call, later.api ≠ .callMethod call

namespace Bus

variable {bus next : Bus Object Environment}

def executing (bus : Bus Object Environment) (fd : Fd) : Option (Execution Object Environment) :=
  (bus.runtimes.lookup fd).bind Runtime.executing

theorem running_eq_some {fd : Fd} {runtime : Runtime Object Environment} :
    bus.running fd = some runtime ↔
      bus.runtimes.lookup fd = some runtime ∧ runtime.running = true :=
  Option.filter_eq_some_iff

theorem of_active {id : Nat}
    {perform : Task Object Environment × Runtime Object Environment →
      Option (Bus Object Environment)}
    (performed : (bus.active id).bind perform = some next) :
    ∃ task runtime, bus.tasks.lookup id = some task ∧ bus.running task.runtime = some runtime ∧
      perform (task, runtime) = some next := by
  obtain ⟨⟨task, runtime⟩, isActive, performed⟩ := Option.bind_eq_some_iff.mp performed
  obtain ⟨task', found, isActive⟩ := Option.bind_eq_some_iff.mp isActive
  obtain ⟨runtime', isRunning, same⟩ := Option.map_eq_some_iff.mp isActive
  simp only [Prod.mk.injEq] at same
  obtain ⟨rfl, rfl⟩ := same
  exact ⟨task', runtime', found, isRunning, performed⟩

theorem of_calling {id : Nat}
    {perform : Task Object Environment × MethodCall Object × Fd × Connection →
      Option (Bus Object Environment)}
    (performed : (bus.calling id).bind perform = some next) :
    ∃ task call socket connection, bus.tasks.lookup id = some task ∧
      task.api = .callMethod call ∧ task.reqSocket = some socket ∧
        bus.connections.lookup socket = some connection ∧
          perform (task, call, socket, connection) = some next := by
  obtain ⟨⟨task, call, socket, connection⟩, isCalling, performed⟩ :=
    Option.bind_eq_some_iff.mp performed
  obtain ⟨⟨task', runtime⟩, isActive, isCalling⟩ := Option.bind_eq_some_iff.mp isCalling
  obtain ⟨task'', found, isActive⟩ := Option.bind_eq_some_iff.mp isActive
  obtain ⟨runtime', isRunning, same⟩ := Option.map_eq_some_iff.mp isActive
  simp only [Prod.mk.injEq] at same
  obtain ⟨rfl, rfl⟩ := same
  dsimp only at isCalling
  split at isCalling
  · rename_i call' isCall
    obtain ⟨socket', isSocket, isCalling⟩ := Option.bind_eq_some_iff.mp isCalling
    obtain ⟨connection', connectionFound, same⟩ := Option.map_eq_some_iff.mp isCalling
    simp only [Prod.mk.injEq] at same
    obtain ⟨rfl, rfl, rfl, rfl⟩ := same
    exact ⟨task'', call', socket', connection', found, isCall, isSocket, connectionFound,
      performed⟩
  · simp at isCalling

theorem lookup_setRuntime (fd other : Fd) (runtime : Runtime Object Environment) :
    (bus.setRuntime fd runtime).runtimes.lookup other =
      if other = fd then some runtime else bus.runtimes.lookup other :=
  lookup_insert ..

theorem executing_setRuntime (fd other : Fd) (runtime : Runtime Object Environment) :
    (bus.setRuntime fd runtime).executing other =
      if other = fd then runtime.executing else bus.executing other := by
  rw [executing, lookup_setRuntime]
  split <;> rfl

theorem lookup_setTask (id other : Nat) (task : Task Object Environment) :
    (bus.setTask id task).tasks.lookup other =
      if other = id then some task else bus.tasks.lookup other :=
  lookup_insert ..

theorem lookup_setConnection (socket other : Fd) (connection : Connection) :
    (bus.setConnection socket connection).connections.lookup other =
      if other = socket then some connection else bus.connections.lookup other :=
  lookup_insert ..

/-- An event that leaves calls and their providers alone.  The bytes between
them stay, except that a caller may throw away a frame. -/
structure Quiet (bus next : Bus Object Environment) : Prop where
  tasks : ∀ id later, next.tasks.lookup id = some later →
    bus.tasks.lookup id = some later ∨
      (bus.tasks.lookup id = none ∧ ∃ runtime api, later = { runtime := runtime, api := api }) ∨
        ∃ task, bus.tasks.lookup id = some task ∧ task.Advances later
  kept : ∀ id ∈ bus.tasks, id ∈ next.tasks
  connections : ∀ socket later, next.connections.lookup socket = some later →
    ∃ connection, bus.connections.lookup socket = some connection ∧
      later = { connection with broken := later.broken, toCaller := later.toCaller } ∧
        (later.toCaller = connection.toCaller ∨
          ∃ frame, nextFrame connection.toCaller = some (frame, later.toCaller))
  connected : ∀ socket ∈ bus.connections, socket ∈ next.connections
  executions : next.executions = bus.executions
  executing : ∀ fd execution, next.executing fd = some execution →
    bus.executing fd = some execution

namespace Quiet

theorem refl (bus : Bus Object Environment) : bus.Quiet bus where
  tasks _ _ := Or.inl
  kept _ := id
  connections _ later found := ⟨later, found, rfl, Or.inl rfl⟩
  connected _ := id
  executions := rfl
  executing _ _ := id

theorem setMaster (master : System) : bus.Quiet { bus with master := master } :=
  ⟨(refl bus).tasks, (refl bus).kept, (refl bus).connections, (refl bus).connected, rfl,
    (refl bus).executing⟩

theorem setRuntime (quiet : bus.Quiet next) {fd : Fd} {runtime : Runtime Object Environment}
    (same : ∀ execution, runtime.executing = some execution →
      bus.executing fd = some execution) : bus.Quiet (next.setRuntime fd runtime) where
  tasks := quiet.tasks
  kept := quiet.kept
  connections := quiet.connections
  connected := quiet.connected
  executions := quiet.executions
  executing other execution isExecuting := by
    rw [executing_setRuntime] at isExecuting
    split_ifs at isExecuting with isFd
    · subst isFd
      exact same execution isExecuting
    · exact quiet.executing other execution isExecuting

/-- A runtime that goes on with what its listening thread is doing. -/
theorem keepRuntime (quiet : bus.Quiet next) {fd : Fd}
    {runtime later : Runtime Object Environment} (found : bus.running fd = some runtime)
    (same : later.executing = runtime.executing) : bus.Quiet (next.setRuntime fd later) := by
  apply quiet.setRuntime
  intro execution isExecuting
  have isFound := (running_eq_some.mp found).1
  rw [Bus.executing, isFound, Option.bind_some, ← same]
  exact isExecuting

theorem setTask (quiet : bus.Quiet next) {id : Nat} {task later : Task Object Environment}
    (found : bus.tasks.lookup id = some task) (advances : task.Advances later) :
    bus.Quiet (next.setTask id later) where
  tasks other later' laterFound := by
    rw [lookup_setTask] at laterFound
    split_ifs at laterFound with isId
    · subst isId
      obtain rfl := Option.some.inj laterFound
      exact Or.inr (Or.inr ⟨task, found, advances⟩)
    · exact quiet.tasks other later' laterFound
  kept other member := Finmap.mem_insert.mpr (Or.inr (quiet.kept other member))
  connections := quiet.connections
  connected := quiet.connected
  executions := quiet.executions
  executing := quiet.executing

theorem proceed (quiet : bus.Quiet next) {id : Nat} {task : Task Object Environment}
    {stage : Stage} (found : bus.tasks.lookup id = some task) (before : task.stage.IsEarly)
    (after : stage.IsEarly) : bus.Quiet (next.setTask id { task with stage := stage }) := by
  apply quiet.setTask found
  exact ⟨rfl, rfl, rfl, fun _ => before, after.ne_connected, before.ne_returned true,
    fun isReturned => absurd isReturned (after.ne_returned true)⟩

theorem stop (quiet : bus.Quiet next) {id : Nat} {task : Task Object Environment} {stage : Stage}
    (found : bus.tasks.lookup id = some task) (unfinished : task.stage ≠ .returned true)
    (ends : ¬ stage.IsEarly ∧ stage ≠ .connected)
    (returned : stage = .returned true → ∀ call, task.api ≠ .callMethod call) :
    bus.Quiet (next.setTask id { task with stage := stage }) := by
  apply quiet.setTask found
  exact ⟨rfl, rfl, rfl, fun early => absurd early ends.1, ends.2, unfinished, returned⟩

theorem setConnection (quiet : bus.Quiet next) {socket : Fd} {connection later : Connection}
    (found : bus.connections.lookup socket = some connection)
    (same : later = { connection with broken := later.broken, toCaller := later.toCaller })
    (taken : later.toCaller = connection.toCaller ∨
      ∃ frame, nextFrame connection.toCaller = some (frame, later.toCaller)) :
    bus.Quiet (next.setConnection socket later) where
  tasks := quiet.tasks
  kept := quiet.kept
  connections other later' laterFound := by
    rw [lookup_setConnection] at laterFound
    split_ifs at laterFound with isSocket
    · subst isSocket
      obtain rfl := Option.some.inj laterFound
      exact ⟨connection, found, same, taken⟩
    · exact quiet.connections other later' laterFound
  connected other member := Finmap.mem_insert.mpr (Or.inr (quiet.connected other member))
  executions := quiet.executions
  executing := quiet.executing

theorem newTask {id : Nat} (fresh : id ∉ bus.tasks) (fd : Fd) (api : Api Object Environment) :
    bus.Quiet (bus.setTask id { runtime := fd, api := api }) where
  tasks other later laterFound := by
    rw [lookup_setTask] at laterFound
    split_ifs at laterFound with isId
    · subst isId
      exact Or.inr (Or.inl ⟨notMem_iff.mp fresh, fd, api, (Option.some.inj laterFound).symm⟩)
    · exact Or.inl laterFound
  kept other member := Finmap.mem_insert.mpr (Or.inr member)
  connections := (refl bus).connections
  connected := (refl bus).connected
  executions := rfl
  executing := (refl bus).executing

end Quiet

/-- The possible effects of an event. -/
inductive Move (json : JsonLibrary) (bus : Bus Object Environment) :
    Event Object Environment → Bus Object Environment → Prop
  | quiet {event next} : bus.Quiet next → Move json bus event next
  | connected {id socket providerFd task call} :
      bus.tasks.lookup id = some task → task.api = .callMethod call → task.stage.IsEarly →
      socket ∉ bus.connections →
        Move json bus (.connect id socket providerFd)
          ((bus.setConnection socket { task := id, provider := providerFd }).setTask id
            { task with stage := .connected, reqSocket := some socket })
  | called {id padding task call socket connection name text} :
      bus.tasks.lookup id = some task → task.api = .callMethod call →
      task.reqSocket = some socket → bus.connections.lookup socket = some connection →
      task.stage = .connected → json.dump (call.callJson name) = some text →
      text.length < 2 ^ 32 →
        Move json bus (.sendCall id padding)
          ((bus.setConnection socket { connection with
              toProvider := connection.toProvider ++
                wire (replyFrame .methodCall text) padding }).setTask id
            { task with stage := .awaiting })
  | accepted {fd socket padding runtime connection frame rest} :
      bus.running fd = some runtime → bus.connections.lookup socket = some connection →
      connection.provider = fd → connection.accepted = false → runtime.executing = none →
      nextFrame connection.toProvider = some (frame, rest) →
        Move json bus (.listen fd socket padding)
          (bus.accept json fd runtime socket
            { connection with accepted := true, toProvider := rest } frame padding)
  | completed {fd environment padding runtime execution answer} :
      bus.running fd = some runtime → runtime.executing = some execution →
      execution.info.callback.callback environment execution.argument = some answer →
        Move json bus (.complete fd environment padding)
          (bus.respond fd runtime execution.socket answer)
  | replied {fd environment padding runtime execution answer text} :
      bus.running fd = some runtime → runtime.executing = some execution →
      execution.info.callback.callback environment execution.argument = some answer →
      json.dump (okResponse (execution.info.callback.response.serialize answer)) = some text →
      text.length < 2 ^ 32 →
        Move json bus (.complete fd environment padding)
          ((bus.respond fd runtime execution.socket answer).reply execution.socket
            (wire (replyFrame .methodResponse text) padding))
  | returned {id task call socket connection frame rest data} :
      bus.tasks.lookup id = some task → task.api = .callMethod call →
      task.reqSocket = some socket → bus.connections.lookup socket = some connection →
      task.stage = .awaiting → nextFrame connection.toCaller = some (frame, rest) →
      responseData json frame = some data →
        Move json bus (.readResponse id)
          ((bus.setConnection socket { connection with toCaller := rest }).setTask id
            { task with stage := .returned true, handed := task.handed ++ [data] })

theorem Quiet.receive {id : Nat} {task : Task Object Environment}
    {runtime later : Runtime Object Environment} (found : bus.tasks.lookup id = some task)
    (isRunning : bus.running task.runtime = some runtime)
    (same : later.executing = runtime.executing) {size : Nat}
    (reading : task.stage = .readingBody size) (content : Bytes) :
    bus.Quiet (bus.receive json id task later content) := by
  have kept : bus.Quiet (bus.setRuntime task.runtime later) :=
    (Quiet.refl bus).keepRuntime isRunning same
  have early : task.stage.IsEarly := by rw [reading]; trivial
  have unfinished : task.stage ≠ .returned true := by simp [reading]
  have ends : ∀ value, ¬ (Stage.returned value).IsEarly ∧ Stage.returned value ≠ .connected := by
    simp [Stage.IsEarly]
  unfold Bus.receive
  split
  · exact kept.stop found unfinished (by simp [Stage.IsEarly]) (by simp)
  · rename_i method callback isProvide
    split
    · apply Quiet.stop _ found unfinished (ends true) (by simp [isProvide])
      exact (Quiet.refl bus).keepRuntime isRunning same
    · exact kept.stop found unfinished (ends false) (by simp)
  · split
    · exact kept.proceed found early trivial
    · exact kept.stop found unfinished (ends false) (by simp)

theorem Quiet.fail (quiet : bus.Quiet next) {id : Nat} {task : Task Object Environment}
    (found : bus.tasks.lookup id = some task) (unfinished : task.stage ≠ .returned true) :
    bus.Quiet (next.setTask id { task with stage := .returned false }) :=
  quiet.stop found unfinished (by simp [Stage.IsEarly]) (by simp)

theorem step_move {event : Event Object Environment} (moved : bus.step json event = some next) :
    Move json bus event next := by
  cases event with
  | join fd name port peer text reply =>
      simp only [step, Option.ite_none_right_eq_some] at moved
      obtain ⟨master, accepted, rfl⟩ := Option.map_eq_some_iff.mp moved.2
      split_ifs with isOk
      · exact .quiet ((Quiet.setMaster master).setRuntime (by simp))
      · exact .quiet (.setMaster master)
  | exit fd =>
      obtain ⟨runtime, found, moved⟩ := Option.bind_eq_some_iff.mp moved
      obtain ⟨master, closed, rfl⟩ := Option.map_eq_some_iff.mp moved
      exact .quiet ((Quiet.setMaster master).keepRuntime found rfl)
  | breakConnection socket =>
      obtain ⟨connection, found, rfl⟩ := Option.map_eq_some_iff.mp moved
      exact .quiet ((Quiet.refl bus).setConnection found rfl (Or.inl rfl))
  | master event =>
      simp only [step, Option.ite_none_right_eq_some] at moved
      obtain ⟨master, masterMoved, rfl⟩ := Option.map_eq_some_iff.mp moved.2
      exact .quiet (.setMaster master)
  | serve fd order reply padding =>
      obtain ⟨runtime, found, moved⟩ := Option.bind_eq_some_iff.mp moved
      obtain ⟨⟨frame, rest⟩, framed, moved⟩ := Option.bind_eq_some_iff.mp moved
      obtain ⟨master, served, rfl⟩ := Option.map_eq_some_iff.mp moved
      refine .quiet ((Quiet.setMaster master).setRuntime fun execution isExecuting => ?_)
      rw [executing, found]
      exact isExecuting
  | keepAlive fd padding =>
      obtain ⟨runtime, found, rfl⟩ := Option.map_eq_some_iff.mp moved
      exact .quiet ((Quiet.refl bus).keepRuntime found (Runtime.write_executing ..))
  | input fd bytes =>
      obtain ⟨runtime, found, moved⟩ := Option.bind_eq_some_iff.mp moved
      simp only [Option.ite_none_left_eq_some, Option.some.injEq] at moved
      obtain ⟨-, rfl⟩ := moved
      exact .quiet ((Quiet.refl bus).keepRuntime found rfl)
  | invoke id fd api =>
      obtain ⟨runtime, found, moved⟩ := Option.bind_eq_some_iff.mp moved
      simp only [Option.ite_none_left_eq_some, Option.some.injEq] at moved
      obtain ⟨fresh, rfl⟩ := moved
      exact .quiet (.newTask fresh fd api)
  | sendHeader id padding =>
      obtain ⟨task, runtime, found, isRunning, moved⟩ := of_active moved
      dsimp only at moved
      split at moved
      · rename_i stage dumped
        obtain rfl := Option.some.inj moved
        exact .quiet ((Quiet.refl bus).stop found (by simp [stage]) (by simp [Stage.IsEarly])
          (by simp))
      · rename_i text stage dumped
        simp only [Option.ite_none_right_eq_some, Option.some.injEq] at moved
        obtain ⟨-, rfl⟩ := moved
        have kept := (Quiet.refl bus).keepRuntime isRunning (runtime.write_executing
          (headerBytes task.api.request.messageType.code padding text.length))
        exact .quiet (kept.proceed found (by rw [stage]; trivial) trivial)
      · simp at moved
  | sendBody id =>
      obtain ⟨task, runtime, found, isRunning, moved⟩ := of_active moved
      dsimp only at moved
      split at moved
      · rename_i text stage
        obtain rfl := Option.some.inj moved
        have kept := (Quiet.refl bus).keepRuntime isRunning
          (runtime.write_executing (task.api.request.bodyBytes text))
        exact .quiet (kept.proceed found (by rw [stage]; trivial) trivial)
      · simp at moved
  | readHeader id =>
      obtain ⟨task, runtime, found, isRunning, moved⟩ := of_active moved
      dsimp only at moved
      split at moved
      · rename_i stage
        simp only [Option.ite_none_right_eq_some, Option.some.injEq] at moved
        obtain ⟨-, rfl⟩ := moved
        apply Move.quiet
        apply Quiet.proceed _ found (by rw [stage]; trivial) (by trivial)
        exact (Quiet.refl bus).keepRuntime isRunning rfl
      · simp at moved
  | readBody id =>
      obtain ⟨task, runtime, found, isRunning, moved⟩ := of_active moved
      dsimp only at moved
      split at moved
      · rename_i size stage
        simp only [Option.ite_none_right_eq_some, Option.some.injEq] at moved
        obtain ⟨-, rfl⟩ := moved
        apply Move.quiet
        apply Quiet.receive found isRunning _ stage
        rfl
      · simp at moved
  | loseMaster id =>
      obtain ⟨task, runtime, found, isRunning, moved⟩ := of_active moved
      dsimp only at moved
      split at moved
      · rename_i call stage isCall
        simp only [Option.ite_none_right_eq_some, Option.some.injEq] at moved
        obtain ⟨-, rfl⟩ := moved
        exact .quiet ((Quiet.refl bus).fail found (by simp [stage]))
      · rename_i method callback stage isProvide
        simp only [Option.ite_none_right_eq_some, Option.some.injEq] at moved
        obtain ⟨-, rfl⟩ := moved
        exact .quiet ((Quiet.refl bus).stop found (by simp [stage]) (by simp [Stage.IsEarly])
          (by simp [isProvide]))
      · simp at moved
  | noSocket id =>
      obtain ⟨task, runtime, found, isRunning, moved⟩ := of_active moved
      dsimp only at moved
      split at moved
      · rename_i reply stage
        obtain rfl := Option.some.inj moved
        apply Move.quiet
        apply Quiet.fail _ found (by simp [stage])
        exact (Quiet.refl bus).keepRuntime isRunning rfl
      · simp at moved
  | refuse id =>
      obtain ⟨task, runtime, found, isRunning, moved⟩ := of_active moved
      dsimp only at moved
      split at moved
      · rename_i reply stage
        obtain rfl := Option.some.inj moved
        exact .quiet ((Quiet.refl bus).fail found (by simp [stage]))
      · simp at moved
  | connect id socket providerFd =>
      obtain ⟨task, runtime, found, isRunning, moved⟩ := of_active moved
      dsimp only at moved
      split at moved
      · rename_i reply call stage isCall
        obtain ⟨provider, providerFound, moved⟩ := Option.bind_eq_some_iff.mp moved
        simp only [Option.ite_none_right_eq_some, Option.some.injEq] at moved
        obtain ⟨⟨-, fresh⟩, rfl⟩ := moved
        exact .connected found isCall (by rw [stage]; trivial) fresh
      · simp at moved
  | sendCall id padding =>
      obtain ⟨_, runtime, _, _, moved⟩ := of_active moved
      dsimp only at moved
      obtain ⟨task, call, socket, connection, found, isCall, isSocket, connectionFound, moved⟩ :=
        of_calling moved
      dsimp only at moved
      split at moved
      · rename_i stage dumped
        obtain rfl := Option.some.inj moved
        exact .quiet ((Quiet.refl bus).fail found (by simp [stage]))
      · rename_i text stage dumped
        simp only [Option.ite_none_right_eq_some, Option.some.injEq] at moved
        obtain ⟨short, rfl⟩ := moved
        exact .called found isCall isSocket connectionFound stage dumped short
      · simp at moved
  | listen fd socket padding =>
      obtain ⟨runtime, found, moved⟩ := Option.bind_eq_some_iff.mp moved
      obtain ⟨connection, connectionFound, moved⟩ := Option.bind_eq_some_iff.mp moved
      simp only [Option.ite_none_right_eq_some] at moved
      obtain ⟨⟨isProvider, unaccepted, idle⟩, moved⟩ := moved
      obtain ⟨⟨frame, rest⟩, framed, rfl⟩ := Option.map_eq_some_iff.mp moved
      exact .accepted found connectionFound isProvider unaccepted
        (Option.isNone_iff_eq_none.mp idle) framed
  | complete fd environment padding =>
      obtain ⟨runtime, found, moved⟩ := Option.bind_eq_some_iff.mp moved
      obtain ⟨execution, isExecuting, moved⟩ := Option.bind_eq_some_iff.mp moved
      dsimp only at moved
      split at moved
      · obtain rfl := Option.some.inj moved
        exact .quiet ((Quiet.refl bus).setRuntime (by simp))
      · rename_i answer isAnswer
        split at moved
        · obtain rfl := Option.some.inj moved
          exact .completed found isExecuting isAnswer
        · rename_i text dumped
          simp only [Option.ite_none_right_eq_some, Option.some.injEq] at moved
          obtain ⟨short, rfl⟩ := moved
          exact .replied found isExecuting isAnswer dumped short
  | readResponse id =>
      obtain ⟨task, call, socket, connection, found, isCall, isSocket, connectionFound, moved⟩ :=
        of_calling moved
      dsimp only at moved
      split at moved
      · rename_i stage
        obtain ⟨⟨frame, rest⟩, framed, rfl⟩ := Option.map_eq_some_iff.mp moved
        cases read : responseData json frame with
        | none =>
            apply Move.quiet
            apply Quiet.fail _ found (by simp [stage])
            exact (Quiet.refl bus).setConnection connectionFound rfl (Or.inr ⟨frame, framed⟩)
        | some data => exact .returned found isCall isSocket connectionFound stage framed read
      · simp at moved
  | loseResponse id =>
      obtain ⟨task, call, socket, connection, found, isCall, isSocket, connectionFound, moved⟩ :=
        of_calling moved
      dsimp only at moved
      split at moved
      · rename_i stage
        simp only [Option.ite_none_right_eq_some, Option.some.injEq] at moved
        obtain ⟨-, rfl⟩ := moved
        exact .quiet ((Quiet.refl bus).fail found (by simp [stage]))
      · simp at moved

end Bus

end UBus.Remote
