import UBus.Method.Messages
import UBus.Network.State

/-!
# Method calls on the bus

The master, any number of runtimes, and any number of threads that make API
calls.  The threads of a runtime share its connection to the master: their
headers and bodies go onto it as they come, keep-alives in between, and
whoever reads takes the next bytes that have arrived.  Each method call has a
connection to its provider of its own, whose listening thread takes one frame
from it.

Connections deliver the bytes that are written, in order, or break.  A text of
4 GiB overruns the buffer it is copied to, so that its sender gets no further.
Calls about events only take part as far as their exchange with the master.
-/

namespace UBus.Remote

open FiniteMap

variable {Object Environment : Type}

inductive Api (Object Environment : Type) where
  | event (request : ApiCall)
  | provideMethod (method : Bytes) (callback : MethodCallbackHolder Object Environment)
  | callMethod (call : MethodCall Object)

def Api.request : Api Object Environment → ApiCall
  | event request => request
  | provideMethod method callback =>
      .provideMethod method callback.request.id callback.response.id
  | callMethod call => .callMethod call.method call.request.id call.response.id

/-- Where an API call is.  One about an event leaves the model when it has read
the master's reply, the others end by returning or by an exception. -/
inductive Stage where
  | sendingHeader
  | sendingBody (text : Bytes)
  | readingHeader
  | readingBody (size : Nat)
  | connecting (reply : Json)
  | connected
  | awaiting
  | returned (value : Bool)
  | threw
  | left

/-- An API call of a runtime: its connection to a provider, and what it has
handed to `response->deserialize`. -/
structure Task (Object Environment : Type) where
  runtime : Fd
  api : Api Object Environment
  stage : Stage := .sendingHeader
  reqSocket : Option Fd := none
  handed : List Bytes := []

/-- A run of a callback, started for what arrived on a connection.  There is no
response until the callback has returned. -/
structure Execution (Object Environment : Type) where
  task : Nat
  socket : Fd
  provider : Fd
  method : Bytes
  info : MethodInfo Object Environment
  argument : Object
  response : Option Object := none

/-- A runtime.  `attached` says whether `control_sock_` still is the connection
to the master, and `control` what has arrived there. -/
structure Runtime (Object Environment : Type) where
  name : Bytes
  port : UInt16
  running : Bool := true
  attached : Bool := true
  toMaster : Bytes := []
  control : Bytes := []
  methodList : FiniteMap Bytes (MethodInfo Object Environment) := ∅
  /-- What the listening thread is running. -/
  executing : Option (Execution Object Environment) := none

/-- The connection of a method call, with the bytes that are under way. -/
structure Connection where
  task : Nat
  provider : Fd
  accepted : Bool := false
  toProvider : Bytes := []
  toCaller : Bytes := []
  broken : Bool := false

/-- `executions` remembers every run of a callback, oldest first. -/
structure Bus (Object Environment : Type) where
  master : System
  runtimes : FiniteMap Fd (Runtime Object Environment)
  tasks : FiniteMap Nat (Task Object Environment)
  connections : FiniteMap Fd Connection
  executions : List (Execution Object Environment)

def wire (frame : Frame) (padding : Padding) : Bytes :=
  headerBytes frame.messageType padding frame.data.length ++ frame.data

/-- A write to `control_sock_`. -/
def Runtime.write (runtime : Runtime Object Environment) (bytes : Bytes) :
    Runtime Object Environment :=
  if runtime.attached then { runtime with toMaster := runtime.toMaster ++ bytes } else runtime

def Execution.respond (execution : Execution Object Environment) (socket : Fd) (answer : Object) :
    Execution Object Environment :=
  if execution.socket = socket then { execution with response := some answer } else execution

/-- A step of a thread, of the master, or of the surroundings.  After
`noSocket` a runtime takes descriptor 0 for the connection to the master, and
`input` is what it gets there. -/
inductive Event (Object Environment : Type) where
  | join (fd : Fd) (name : Bytes) (port : UInt16) (peer : SocketAddress) (text : Bytes)
      (reply : Frame)
  | exit (fd : Fd)
  | breakConnection (socket : Fd)
  | master (event : UBus.Event)
  | serve (fd : Fd) (order : List Bytes) (reply : Option Frame) (padding : Padding)
  | keepAlive (fd : Fd) (padding : Padding)
  | input (fd : Fd) (bytes : Bytes)
  | invoke (id : Nat) (fd : Fd) (api : Api Object Environment)
  | sendHeader (id : Nat) (padding : Padding)
  | sendBody (id : Nat)
  | readHeader (id : Nat)
  | readBody (id : Nat)
  | loseMaster (id : Nat)
  | noSocket (id : Nat)
  | refuse (id : Nat)
  | connect (id : Nat) (socket provider : Fd)
  | sendCall (id : Nat) (padding : Padding)
  | listen (fd socket : Fd) (padding : Padding)
  | complete (fd : Fd) (environment : Environment) (padding : Padding)
  | readResponse (id : Nat)
  | loseResponse (id : Nat)

namespace Bus

variable (bus : Bus Object Environment)

def setRuntime (fd : Fd) (runtime : Runtime Object Environment) : Bus Object Environment :=
  { bus with runtimes := bus.runtimes.insert fd runtime }

def setTask (id : Nat) (task : Task Object Environment) : Bus Object Environment :=
  { bus with tasks := bus.tasks.insert id task }

def setConnection (socket : Fd) (connection : Connection) : Bus Object Environment :=
  { bus with connections := bus.connections.insert socket connection }

/-- A runtime whose process has not ended. -/
def running (fd : Fd) : Option (Runtime Object Environment) :=
  (bus.runtimes.lookup fd).filter Runtime.running

def active (id : Nat) : Option (Task Object Environment × Runtime Object Environment) :=
  (bus.tasks.lookup id).bind fun task =>
    (bus.running task.runtime).map fun runtime => (task, runtime)

def calling (id : Nat) : Option (Task Object Environment × MethodCall Object × Fd × Connection) :=
  (bus.active id).bind fun (task, _) =>
    match task.api with
    | .callMethod call =>
        task.reqSocket.bind fun socket =>
          (bus.connections.lookup socket).map fun connection => (task, call, socket, connection)
    | _ => none

/-- What an API call does with the reply of the master. -/
def receive (json : JsonLibrary) (id : Nat) (task : Task Object Environment)
    (runtime : Runtime Object Environment) (content : Bytes) : Bus Object Environment :=
  match task.api with
  | .event _ => (bus.setRuntime task.runtime runtime).setTask id { task with stage := .left }
  | .provideMethod method callback =>
      if saysOk json content then
        (bus.setRuntime task.runtime { runtime with
          methodList := runtime.methodList.insert method (.ofCallback callback) }).setTask id
            { task with stage := .returned true }
      else
        (bus.setRuntime task.runtime runtime).setTask id { task with stage := .returned false }
  | .callMethod _ =>
      match confirmation json content with
      | some reply =>
          (bus.setRuntime task.runtime runtime).setTask id { task with stage := .connecting reply }
      | none =>
          (bus.setRuntime task.runtime runtime).setTask id { task with stage := .returned false }

def execute (fd : Fd) (runtime : Runtime Object Environment)
    (execution : Execution Object Environment) : Bus Object Environment :=
  { bus.setRuntime fd { runtime with executing := some execution } with
    executions := bus.executions ++ [execution] }

/-- What the listening thread does with a frame on a connection. -/
def accept (json : JsonLibrary) (fd : Fd) (runtime : Runtime Object Environment) (socket : Fd)
    (connection : Connection) (frame : Frame) (padding : Padding) : Bus Object Environment :=
  if frame.messageType = FrameType.methodCall.code then
    match dispatch json runtime.methodList frame.data with
    | .threw => bus.setConnection socket connection
    | .invalid => bus.setConnection socket { connection with
        toCaller := connection.toCaller ++
          wire (replyFrame .methodResponse SubscribeAnswer.invalid.replyText) padding }
    | .execute method info requestData =>
        (bus.setConnection socket connection).execute fd runtime {
          task := connection.task
          socket := socket
          provider := fd
          method := method
          info := info
          argument := info.callback.request.deserialize requestData }
  else
    -- a caller sends nothing else
    bus.setConnection socket connection

def respond (fd : Fd) (runtime : Runtime Object Environment) (socket : Fd) (answer : Object) :
    Bus Object Environment :=
  { bus.setRuntime fd { runtime with executing := none } with
    executions := bus.executions.map fun execution => execution.respond socket answer }

def reply (socket : Fd) (bytes : Bytes) : Bus Object Environment :=
  { bus with
    connections := bus.connections.modify socket fun connection =>
      { connection with toCaller := connection.toCaller ++ bytes } }

def step (json : JsonLibrary) (bus : Bus Object Environment) :
    Event Object Environment → Option (Bus Object Environment)
  | .join fd name port peer text reply =>
      if json.dump (initiation name port) = some text ∧ text.length < 2 ^ 32 ∧
          ∀ other ∈ bus.runtimes.keys, ∀ runtime ∈ bus.running other, runtime.port ≠ port then
        (bus.master.step json
          (.accept fd peer ⟨FrameType.initiation.code, text⟩ (some reply))).map fun master =>
            if saysOk json reply.data then
              { bus with master := master }.setRuntime fd { name := name, port := port }
            else { bus with master := master }
      else none
  | .exit fd =>
      (bus.running fd).bind fun runtime =>
        (bus.master.step json (.peerClose fd)).map fun master =>
          { bus with master := master }.setRuntime fd { runtime with running := false }
  | .breakConnection socket =>
      (bus.connections.lookup socket).map fun connection =>
        bus.setConnection socket { connection with broken := true }
  | .master event =>
      if event.isInternal then
        (bus.master.step json event).map fun master => { bus with master := master }
      else none
  | .serve fd order reply padding =>
      (bus.runtimes.lookup fd).bind fun runtime =>
        (nextFrame runtime.toMaster).bind fun (frame, rest) =>
          (bus.master.step json (.control fd frame order reply)).map fun master =>
            { bus with master := master }.setRuntime fd { runtime with
              toMaster := rest
              control :=
                if runtime.attached then
                  runtime.control ++ (reply.map fun reply => wire reply padding).getD []
                else runtime.control }
  | .keepAlive fd padding =>
      (bus.running fd).map fun runtime =>
        bus.setRuntime fd (runtime.write (headerBytes FrameType.keepAlive.code padding 0))
  | .input fd bytes =>
      (bus.running fd).bind fun runtime =>
        if runtime.attached then none
        else some (bus.setRuntime fd { runtime with control := runtime.control ++ bytes })
  | .invoke id fd api =>
      (bus.running fd).bind fun _ =>
        if id ∈ bus.tasks then none else some (bus.setTask id { runtime := fd, api := api })
  | .sendHeader id padding =>
      (bus.active id).bind fun (task, runtime) =>
        match task.stage, json.dump (task.api.request.request runtime.name) with
        | .sendingHeader, none => some (bus.setTask id { task with stage := .threw })
        | .sendingHeader, some text =>
            if text.length < 2 ^ 32 then
              some ((bus.setRuntime task.runtime (runtime.write
                (headerBytes task.api.request.messageType.code padding text.length))).setTask id
                  { task with stage := .sendingBody text })
            else none
        | _, _ => none
  | .sendBody id =>
      (bus.active id).bind fun (task, runtime) =>
        match task.stage with
        | .sendingBody text =>
            some ((bus.setRuntime task.runtime
              (runtime.write (task.api.request.bodyBytes text))).setTask id
                { task with stage := .readingHeader })
        | _ => none
  | .readHeader id =>
      (bus.active id).bind fun (task, runtime) =>
        match task.stage with
        | .readingHeader =>
            if headerSize ≤ runtime.control.length then
              some ((bus.setRuntime task.runtime
                { runtime with control := runtime.control.drop headerSize }).setTask id
                  { task with stage :=
                    .readingBody (parseHeader (runtime.control.take headerSize)).dataLength })
            else none
        | _ => none
  | .readBody id =>
      (bus.active id).bind fun (task, runtime) =>
        match task.stage with
        | .readingBody size =>
            if size ≤ runtime.control.length then
              some (bus.receive json id task
                { runtime with control := runtime.control.drop size } (runtime.control.take size))
            else none
        | _ => none
  | .loseMaster id =>
      (bus.active id).bind fun (task, runtime) =>
        match task.stage, task.api with
        | .readingHeader, .callMethod _ =>
            if runtime.control.length < headerSize then
              some (bus.setTask id { task with stage := .returned false })
            else none
        | .readingHeader, .provideMethod .. =>
            if runtime.control.length < headerSize then
              some (bus.setTask id { task with stage := .returned true })
            else none
        | _, _ => none
  | .noSocket id =>
      (bus.active id).bind fun (task, runtime) =>
        match task.stage with
        | .connecting _ =>
            some ((bus.setRuntime task.runtime
              { runtime with attached := false, control := [] }).setTask id
                { task with stage := .returned false })
        | _ => none
  | .refuse id =>
      (bus.active id).bind fun (task, _) =>
        match task.stage with
        | .connecting _ => some (bus.setTask id { task with stage := .returned false })
        | _ => none
  | .connect id socket providerFd =>
      (bus.active id).bind fun (task, _) =>
        match task.stage, task.api with
        | .connecting reply, .callMethod _ =>
            (bus.running providerFd).bind fun provider =>
              if providerPort reply = some provider.port ∧ socket ∉ bus.connections then
                some ((bus.setConnection socket { task := id, provider := providerFd }).setTask id
                  { task with stage := .connected, reqSocket := some socket })
              else none
        | _, _ => none
  | .sendCall id padding =>
      (bus.active id).bind fun (_, runtime) =>
        (bus.calling id).bind fun (task, call, socket, connection) =>
          match task.stage, json.dump (call.callJson runtime.name) with
          | .connected, none => some (bus.setTask id { task with stage := .returned false })
          | .connected, some text =>
              if text.length < 2 ^ 32 then
                some ((bus.setConnection socket { connection with
                    toProvider := connection.toProvider ++
                      wire (replyFrame .methodCall text) padding }).setTask id
                  { task with stage := .awaiting })
              else none
          | _, _ => none
  | .listen fd socket padding =>
      (bus.running fd).bind fun runtime =>
        (bus.connections.lookup socket).bind fun connection =>
          if connection.provider = fd ∧ connection.accepted = false ∧
              runtime.executing.isNone then
            (nextFrame connection.toProvider).map fun (frame, rest) =>
              bus.accept json fd runtime socket
                { connection with accepted := true, toProvider := rest } frame padding
          else none
  | .complete fd environment padding =>
      (bus.running fd).bind fun runtime =>
        runtime.executing.bind fun execution =>
          match execution.info.callback.callback environment execution.argument with
          | none => some (bus.setRuntime fd { runtime with executing := none })
          | some answer =>
              let answered := bus.respond fd runtime execution.socket answer
              match json.dump (okResponse (execution.info.callback.response.serialize answer)) with
              | none => some answered
              | some text =>
                  if text.length < 2 ^ 32 then
                    some (answered.reply execution.socket
                      (wire (replyFrame .methodResponse text) padding))
                  else none
  | .readResponse id =>
      (bus.calling id).bind fun (task, _, socket, connection) =>
        match task.stage with
        | .awaiting =>
            (nextFrame connection.toCaller).map fun (frame, rest) =>
              (bus.setConnection socket { connection with toCaller := rest }).setTask id
                (match responseData json frame with
                | some data =>
                    { task with stage := .returned true, handed := task.handed ++ [data] }
                | none => { task with stage := .returned false })
        | _ => none
  | .loseResponse id =>
      (bus.calling id).bind fun (task, _, _, connection) =>
        match task.stage with
        | .awaiting =>
            if (connection.broken ∨ bus.running connection.provider = none) ∧
                nextFrame connection.toCaller = none then
              some (bus.setTask id { task with stage := .returned false })
            else none
        | _ => none

structure Initial (bus : Bus Object Environment) : Prop where
  master : bus.master.Initial
  runtimes : bus.runtimes = ∅
  tasks : bus.tasks = ∅
  connections : bus.connections = ∅
  executions : bus.executions = []

end Bus

def busSystem (json : JsonLibrary) (Object Environment : Type) :
    EventSystem (Bus Object Environment) (Event Object Environment) where
  Initial := Bus.Initial
  step := Bus.step json

end UBus.Remote
