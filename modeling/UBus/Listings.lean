import UBus.Accepting
import UBus.Debugger

/-!
# The listings of the debugger

The debugger asks the master for its events, methods or participants and prints
what it gets, or returns it as a text.  The three queries differ in the name of
the list and in what they print of an entry; the list of participants leaves out
the debugger itself.  In whatever state the master is, the debugger prints
exactly what is registered.
-/

namespace UBus

open FiniteMap

namespace UBusDebugger

/-- What a loop has printed, and whether it has come to its end. -/
structure Printed where
  text : Bytes
  completed : Bool
  deriving DecidableEq

def Printed.andThen (printed : Printed) (later : Printed) : Printed :=
  if printed.completed then ⟨printed.text ++ later.text, later.completed⟩ else printed

def newline : Bytes := ascii "\n"

/-- A line that is printed of an entry: a label, and a field of the entry. -/
structure Line where
  label : Bytes
  field : Bytes
  isNumber : Bool

def Line.value (line : Line) (entry : Json) : Option Bytes :=
  if line.isNumber then (entry.uint32At line.field).map fun number => decimal number.toNat
  else entry.stringAt line.field

/-- A label is printed before the conversion of its field can throw. -/
def Line.print (line : Line) (entry : Json) : Printed :=
  match line.value entry with
  | none => ⟨line.label, false⟩
  | some value => ⟨line.label ++ value ++ newline, true⟩

def printLines (entry : Json) : List Line → Printed
  | [] => ⟨newline, true⟩
  | line :: lines => (line.print entry).andThen (printLines entry lines)

inductive Listing where
  | event
  | method
  | participant
  deriving DecidableEq

namespace Listing

def debugType : Listing → Bytes
  | event => ascii "list_event"
  | method => ascii "list_method"
  | participant => ascii "list_participant"

def title : Listing → Bytes
  | event => ascii "Event :"
  | method => ascii "Method :"
  | participant => ascii "Participant :"

def lines : Listing → List Line
  | event => [
      ⟨ascii "    name      ", ascii "name", false⟩,
      ⟨ascii "    type      ", ascii "type", true⟩,
      ⟨ascii "    publisher ", ascii "publisher", false⟩]
  | method => [
      ⟨ascii "    name          ", ascii "name", false⟩,
      ⟨ascii "    request_type  ", ascii "request_type", true⟩,
      ⟨ascii "    response_type ", ascii "response_type", true⟩,
      ⟨ascii "    provider      ", ascii "provider", false⟩]
  | participant => [
      ⟨ascii "    name           ", ascii "name", false⟩,
      ⟨ascii "    ip             ", ascii "ip", false⟩,
      ⟨ascii "    port           ", ascii "port", true⟩,
      ⟨ascii "    listening_ip   ", ascii "listening_ip", false⟩,
      ⟨ascii "    listening_port ", ascii "listening_port", true⟩]

def printEntry (listing : Listing) (entry : Json) : Printed :=
  Printed.andThen ⟨listing.title ++ newline, true⟩ (printLines entry listing.lines)

/-- One round of the printing loop of a debugger called `own`. -/
def printRound (listing : Listing) (own : Bytes) (entry : Json) : Printed :=
  match listing with
  | event | method => listing.printEntry entry
  | participant =>
      match entry.stringAt (ascii "name") with
      | none => ⟨[], false⟩
      | some name => if name = own then ⟨[], true⟩ else listing.printEntry entry

def printEntries (listing : Listing) (own : Bytes) : List Json → Printed
  | [] => ⟨[], true⟩
  | entry :: entries =>
      (listing.printRound own entry).andThen (listing.printEntries own entries)

def query (listing : Listing) : Json :=
  Json.ofAssignments [(ascii "debug_type", .string listing.debugType)]

end Listing

/-- How a query ends: with an exception, waiting forever, or with a value, what
it has printed and the contents of `*out`. -/
inductive Queried where
  | threw (printed : Bytes)
  | blocked
  | returned (value : Bool) (printed : Bytes) (out : Option Bytes)

/-- What a query does with the text of the reply; `wantsOut` says that `out` is
no null pointer. -/
def Listing.answer (json : JsonLibrary) (listing : Listing) (own : Bytes) (wantsOut : Bool)
    (output : Bytes) : Queried :=
  match json.parse output with
  | none => .returned false [] none
  | some responseStruct =>
      match responseStruct.at? (ascii "response"), responseStruct.at? (ascii "response_data") with
      | some response, some entries =>
          if ¬ response.isString (ascii "OK") then .returned false [] none
          else if wantsOut then
            match json.dump entries with
            | none => .threw []
            | some text => .returned true [] (some text)
          else
            match entries with
            | .array items =>
                let printed := listing.printEntries own items
                if printed.completed then .returned true printed.text none
                else .threw printed.text
            | _ => .returned true [] none
      | _, _ => .returned false [] none

/-- How `query_debug_info` receives. -/
def debugReply (exchange : Exchange) : Received :=
  receiveTyped .debug exchange.memory exchange.results

/-- `query_event_list`, `query_method_list` and `query_participant_list`. -/
def Listing.run (json : JsonLibrary) (listing : Listing) (own : Bytes) (wantsOut : Bool)
    (exchange : Exchange) : Queried :=
  match json.dump listing.query with
  | none => .threw []
  | some _ =>
      match debugReply exchange with
      | .blocked => .blocked
      | .frame frame _ =>
          if frame.messageType = FrameType.debug.code then
            listing.answer json own wantsOut frame.data
          else .returned false [] none
      | .shortHeader _ | .shortContent _ | .peerClosed _ => .returned false [] none

namespace Listing

def values (master : UBusMaster) : Listing → Bytes → Option (List Bytes)
  | event, name => (master.eventList.lookup name).map fun event =>
      [name, decimal (UInt32.toNat event.types), (master.participants event.publisher).name]
  | method, name => (master.methodList.lookup name).map fun method =>
      [name, decimal method.types.1.toNat, decimal method.types.2.toNat,
        (master.participants method.publisher).name]
  | participant, name => (master.participantList.lookup name).map fun participant =>
      [name, (master.participants participant).ip,
        decimal (master.participants participant).port.toNat,
        (master.participants participant).listeningIp,
        decimal (master.participants participant).listeningPort.toNat]

def block (listing : Listing) (values : List Bytes) : Bytes :=
  let lines := List.zipWith (fun line value => line.label ++ value ++ newline) listing.lines values
  listing.title ++ newline ++ lines.flatten ++ newline

/-- What a debugger called `own` is to print of a name. -/
def shown (master : UBusMaster) (own : Bytes) (listing : Listing) (name : Bytes) : Bytes :=
  if listing = participant ∧ name = own then []
  else ((listing.values master name).map listing.block).getD []

/-- `order` visits what the list contains, each name once. -/
def Visits (master : UBusMaster) (listing : Listing) (order : List Bytes) : Prop :=
  order.Nodup ∧ ∀ name, name ∈ order ↔ (listing.values master name).isSome

/-- The element that stands for a name in the master's reply. -/
def entry (master : UBusMaster) : Listing → Bytes → Option Json
  | event, name => (master.eventList.lookup name).map (eventStruct master)
  | method, name => (master.methodList.lookup name).map (methodStruct master)
  | participant, name => (master.participantList.lookup name).map fun participant =>
      participantStruct (master.participants participant)

variable {json : JsonLibrary} {master : UBusMaster}

theorem debugItems_eq (listing : Listing) (order : List Bytes) :
    debugItems master order (.string listing.debugType) =
      some (order.filterMap (listing.entry master)) := by
  cases listing <;> rfl

theorem entry_readAs {listing : Listing} {name : Bytes} {element : Json}
    (isEntry : listing.entry master name = some element) : element.ReadAs element := by
  cases listing with
  | event =>
      obtain ⟨event, -, rfl⟩ := Option.map_eq_some_iff.mp isEntry
      exact eventStruct_readAs event
  | method =>
      obtain ⟨method, -, rfl⟩ := Option.map_eq_some_iff.mp isEntry
      apply Json.readAs_ofAssignments
      simp only [List.forall_mem_cons, List.not_mem_nil, false_implies, implies_true, and_true]
      exact ⟨.scalar trivial, .scalar trivial, .scalar trivial, .scalar trivial⟩
  | participant =>
      obtain ⟨participant, -, rfl⟩ := Option.map_eq_some_iff.mp isEntry
      apply Json.readAs_ofAssignments
      simp only [List.forall_mem_cons, List.not_mem_nil, false_implies, implies_true, and_true]
      exact ⟨.scalar trivial, .scalar trivial, .scalar trivial, .scalar trivial, .scalar trivial⟩

end Listing

theorem Line.print_of_value {line : Line} {entry : Json} {value : Bytes}
    (isValue : line.value entry = some value) :
    line.print entry = ⟨line.label ++ value ++ newline, true⟩ := by
  rw [print, isValue]

theorem printLines_of_values {entry : Json} {lines : List Line} {values : List Bytes}
    (areValues : List.Forall₂ (fun line value => line.value entry = some value) lines values) :
    printLines entry lines =
      ⟨(List.zipWith (fun line value => line.label ++ value ++ newline) lines values).flatten ++
        newline, true⟩ := by
  induction areValues with
  | nil => rfl
  | cons isValue _ ih =>
      rw [printLines, Line.print_of_value isValue, ih]
      simp [Printed.andThen]

namespace Listing

variable {json : JsonLibrary} {master : UBusMaster}

theorem value_number {label field : Bytes} {entry : Json} {number : UInt32}
    (found : entry.at? field = some (.ofUInt32 number)) :
    Line.value ⟨label, field, true⟩ entry = some (decimal number.toNat) := by
  change ((entry.at? field).bind Json.getUInt32).map _ = _
  rw [found]
  exact congrArg (fun read => some (decimal (UInt32.toNat read))) (UInt32.toUInt32_toUInt64 number)

theorem entry_values (consistent : master.RegistryConsistent) (named : master.NamedAsListed)
    (listing : Listing) (name : Bytes) :
    (listing.entry master name = none ∧ listing.values master name = none) ∨
      ∃ element values, listing.entry master name = some element ∧
        listing.values master name = some values ∧
        element.stringAt (ascii "name") = some name ∧
        List.Forall₂ (fun line value => line.value element = some value) listing.lines values := by
  cases listing with
  | event =>
      cases found : master.eventList.lookup name with
      | none => exact Or.inl ⟨by rw [entry, found, Option.map_none], by rw [values, found]; rfl⟩
      | some event =>
          have nameEq : event.name = name := named .event name event found
          refine Or.inr ⟨eventStruct master event, _, by rw [entry, found, Option.map_some],
            by rw [values, found, Option.map_some], congrArg some nameEq, ?_⟩
          exact .cons (congrArg some nameEq) (.cons (value_number rfl) (.cons rfl .nil))
  | method =>
      cases found : master.methodList.lookup name with
      | none => exact Or.inl ⟨by rw [entry, found, Option.map_none], by rw [values, found]; rfl⟩
      | some method =>
          have nameEq : method.name = name := named .method name method found
          refine Or.inr ⟨methodStruct master method, _, by rw [entry, found, Option.map_some],
            by rw [values, found, Option.map_some], congrArg some nameEq, ?_⟩
          exact .cons (congrArg some nameEq)
            (.cons (value_number rfl) (.cons (value_number rfl) (.cons rfl .nil)))
  | participant =>
      cases found : master.participantList.lookup name with
      | none => exact Or.inl ⟨by rw [entry, found, Option.map_none], by rw [values, found]; rfl⟩
      | some participant =>
          have nameEq := (consistent.listed found).1
          refine Or.inr ⟨participantStruct (master.participants participant), _,
            by rw [entry, found, Option.map_some], by rw [values, found, Option.map_some],
            congrArg some nameEq, ?_⟩
          exact .cons (congrArg some nameEq) (.cons rfl
            (.cons (value_number rfl) (.cons rfl (.cons (value_number rfl) .nil))))

theorem printRound_eq {listing : Listing} {own name : Bytes} {element : Json}
    (consistent : master.RegistryConsistent) (named : master.NamedAsListed)
    (isEntry : listing.entry master name = some element) :
    listing.printRound own element = ⟨listing.shown master own name, true⟩ := by
  rcases entry_values consistent named listing name with
    ⟨noEntry, -⟩ | ⟨element', values, isEntry', isValues, nameAt, lineValues⟩
  · rw [noEntry] at isEntry
    cases isEntry
  · obtain rfl := Option.some.inj (isEntry.symm.trans isEntry')
    have whole : listing.printEntry element = ⟨listing.block values, true⟩ := by
      rw [printEntry, printLines_of_values lineValues]
      simp [Printed.andThen, block]
    unfold shown
    rw [isValues]
    cases listing with
    | event => exact whole
    | method => exact whole
    | participant =>
        rw [printRound, nameAt]
        dsimp only
        split_ifs with isOwn skipped skipped
        · rfl
        · exact absurd ⟨rfl, isOwn⟩ skipped
        · exact absurd skipped.2 isOwn
        · exact whole

theorem printEntries_eq {listing : Listing} {own : Bytes}
    (consistent : master.RegistryConsistent) (named : master.NamedAsListed) (order : List Bytes) :
    listing.printEntries own (order.filterMap (listing.entry master)) =
      ⟨order.flatMap (listing.shown master own), true⟩ := by
  induction order with
  | nil => rfl
  | cons name order ih =>
      rcases entry_values consistent named listing name with
        ⟨noEntry, noValues⟩ | ⟨element, values, isEntry, -⟩
      · have nothing : listing.shown master own name = [] := by
          rw [shown, noValues]
          split_ifs <;> rfl
        rw [List.filterMap_cons_none noEntry, ih, List.flatMap_cons, nothing, List.nil_append]
      · rw [List.filterMap_cons_some isEntry, printEntries,
          printRound_eq consistent named isEntry, ih, List.flatMap_cons]
        rfl

theorem parse_query (reads : json.ReadsDocuments) {listing : Listing} {text : Bytes}
    (dumped : json.dump listing.query = some text) : json.parse text = some listing.query :=
  reads.roundTrips.parse_ofAssignments (by simp [Json.IsScalar]) dumped

theorem query_debugType (listing : Listing) :
    listing.query.at? (ascii "debug_type") = some (.string listing.debugType) := rfl

theorem visits_of_visitsListed (reads : json.ReadsDocuments) {listing : Listing} {text : Bytes}
    (dumped : json.dump listing.query = some text) {order : List Bytes}
    (visits : VisitsListed json master order ⟨FrameType.debug.code, text⟩) :
    listing.Visits master order := by
  have mem_order {Value : Type} {map : FiniteMap Bytes Value} (enumerates : Enumerates order map)
      (name : Bytes) : name ∈ order ↔ (map.lookup name).isSome := by
    rw [← List.mem_toFinset, enumerates.2, Option.isSome_iff_exists]
    exact mem_iff
  rw [VisitsListed, parse_query reads dumped] at visits
  cases listing with
  | event =>
      refine ⟨visits.1, fun name => ?_⟩
      rw [mem_order visits, values, Option.isSome_map]
  | method =>
      refine ⟨visits.1, fun name => ?_⟩
      rw [mem_order visits, values, Option.isSome_map]
  | participant =>
      refine ⟨visits.1, fun name => ?_⟩
      rw [mem_order visits, values, Option.isSome_map]

theorem processDebugMessage_query (reads : json.ReadsDocuments) {listing : Listing} {text : Bytes}
    (dumped : json.dump listing.query = some text) (order : List Bytes) :
    processDebugMessage json master order text =
      json.dump (UBus.listing (order.filterMap (listing.entry master))) := by
  rw [processDebugMessage, parse_query reads dumped, Option.getD_some, query_debugType]
  dsimp only
  rw [debugItems_eq]

end Listing

/-- What a query makes of the text of the master's reply: it prints the list, or
returns a text that stands for it. -/
theorem Listing.answer_listing {json : JsonLibrary} (reads : json.ReadsDocuments)
    {master : UBusMaster} (consistent : master.RegistryConsistent) (named : master.NamedAsListed)
    (valid : master.TextsValid) {listing : Listing} {order : List Bytes} {output : Bytes}
    (dumped : json.dump (UBus.listing (order.filterMap (listing.entry master))) = some output)
    (own : Bytes) :
    listing.answer json own false output =
        .returned true (order.flatMap (listing.shown master own)) none ∧
      ∃ text, listing.answer json own true output = .returned true [] (some text) ∧
        json.parse text = some (.array (order.filterMap (listing.entry master))) := by
  have items : (Json.array (order.filterMap (listing.entry master))).ReadAs
      (.array (order.filterMap (listing.entry master))) := by
    refine .array (List.forall₂_same.mpr fun item isItem => ?_)
    obtain ⟨name, -, itemEq⟩ := List.mem_filterMap.mp isItem
    exact entry_readAs itemEq
  have parsed : json.parse output =
      some (UBus.listing (order.filterMap (listing.entry master))) := by
    refine reads.parse_dump (Json.readAs_ofAssignments ?_) dumped
    simp only [List.forall_mem_cons, List.not_mem_nil, false_implies, implies_true, and_true]
    exact ⟨.scalar trivial, items⟩
  have response : (UBus.listing (order.filterMap (listing.entry master))).at?
      (ascii "response") = some (.string (ascii "OK")) := rfl
  have responseData : (UBus.listing (order.filterMap (listing.entry master))).at?
      (ascii "response_data") = some (.array (order.filterMap (listing.entry master))) := rfl
  have isOk : (Json.string (ascii "OK")).isString (ascii "OK") = true := by decide
  constructor
  · simp only [answer, parsed, response, responseData, isOk, not_true_eq_false, if_false,
      Bool.false_eq_true, printEntries_eq consistent named, if_true]
  · obtain ⟨text, textEq⟩ : ∃ text,
        json.dump (.array (order.filterMap (listing.entry master))) = some text := by
      refine Option.isSome_iff_exists.mp (dumpJson_isSome _ _ fun contents member => ?_)
      obtain ⟨item, isItem, inItem⟩ := Json.mem_itemStrings.mp member
      exact valid.debugItems (debugItems_eq listing order) item isItem contents inItem
    refine ⟨text, ?_, reads.parse_dump items textEq⟩
    simp only [answer, parsed, response, responseData, isOk, not_true_eq_false, if_false, if_true,
      textEq]

/-- When the master has answered the query of a debugger in a reachable state,
and the answer arrives whole, the debugger prints every registered name once,
with its values and nothing else; or it returns a text that stands for the same
list. -/
theorem listings_complete {json : JsonLibrary} (reads : json.ReadsDocuments)
    {system next : System} (reachable : (masterSystem json).Reachable system) {listing : Listing}
    {text : Bytes} (dumped : json.dump listing.query = some text) {fd : Fd} {order : List Bytes}
    {reply : Frame}
    (moved : system.step json
      (.control fd ⟨FrameType.debug.code, text⟩ order (some reply)) = some next)
    (short : ∀ output, json.dump (UBus.listing (order.filterMap (listing.entry system.master))) =
      some output → output.length < 2 ^ 32)
    {exchange : Exchange} (delivers : exchange.Delivers reply) (own : Bytes) :
    listing.Visits system.master order ∧
      listing.run json own false exchange =
        .returned true (order.flatMap (listing.shown system.master own)) none ∧
      ∃ out items, listing.run json own true exchange = .returned true [] (some out) ∧
        json.parse out = some (.array items) ∧
        listing.printEntries own items =
          ⟨order.flatMap (listing.shown system.master own), true⟩ := by
  have consistent := (System.RegistryInvariant.of_reachable reachable).consistent
  have named := UBusMaster.NamedAsListed.of_reachable reachable
  have valid := UBusMaster.TextsValid.of_reachable reachable
  obtain ⟨output, outputEq⟩ := valid.processDebugMessage json order text
  have replyEq : reply = replyFrame .debug output := by
    have completed := System.step_control moved
    rw [processFrame_debug rfl] at completed
    simp only [frameDebug, outputEq, Handled.completed, Option.some.injEq, Prod.mk.injEq]
      at completed
    exact completed.2.symm
  have visits : VisitsListed json system.master order ⟨FrameType.debug.code, text⟩ := by
    obtain ⟨⟨slot, fd'⟩, -, processed⟩ := Option.bind_eq_some_iff.mp moved
    simp only [Option.ite_none_right_eq_some] at processed
    exact processed.1.2
  rw [Listing.processDebugMessage_query reads dumped] at outputEq
  have whole : reply.data = output := by
    rw [replyEq]
    exact replyFrame_data outputEq (short output outputEq)
  have isDebug : reply.messageType = FrameType.debug.code := by
    rw [replyEq]
    rfl
  obtain ⟨rest, received⟩ := receiveTyped_of_delivers delivers isDebug
  have run : ∀ wantsOut, listing.run json own wantsOut exchange =
      listing.answer json own wantsOut output := by
    intro wantsOut
    simp only [Listing.run, debugReply, dumped, received, if_pos isDebug, whole]
  obtain ⟨printed, out, returned, parsed⟩ :=
    Listing.answer_listing reads consistent named valid outputEq own
  refine ⟨Listing.visits_of_visitsListed reads dumped visits, (run false).trans printed, out, _,
    (run true).trans returned, parsed, Listing.printEntries_eq consistent named order⟩

def participantReply : Bytes :=
  requestText (listing [participantStruct (joiningInfo ⟨(127, 0, 0, 1), 50000⟩ 5 (ascii "a")
    (ascii "127.0.0.1") 4000)])

def participantExchange : Exchange where
  memory := ⟨fun _ => 0, fun _ => 0⟩
  results := [.bytes (headerBytes FrameType.debug.code (0, 0, 0) participantReply.length),
    .error .eintr, .bytes participantReply]

/-- A debugger prints the one participant there is. -/
theorem listings_complete_sample : ∃ system : System,
    system.master.participantList.lookup (ascii "a") = some 0 ∧
      Listing.participant.Visits system.master [ascii "a"] ∧
      Listing.participant.run .plain (ascii "debugger") false participantExchange =
        .returned true
          ([ascii "a"].flatMap (Listing.participant.shown system.master (ascii "debugger")))
          none := by
  obtain ⟨system, run, listed, moved, reply⟩ :=
    (masterSystem .plain).exists_run_of_steps Event.untilRead
      (fun system => system.master.participantList.lookup (ascii "a") = some 0 ∧
        (system.step .plain (.control 5
          ⟨FrameType.debug.code, requestText Listing.participant.query⟩ [ascii "a"]
          (some (replyFrame .debug participantReply)))).isSome = true ∧
        JsonLibrary.plain.dump (UBus.listing
          ([ascii "a"].filterMap (Listing.participant.entry system.master))) =
            some participantReply)
      System.started_initial (by decide +kernel)
  obtain ⟨next, moved⟩ := Option.isSome_iff_exists.mp moved
  have short : participantReply.length < 2 ^ 32 := by decide +kernel
  have delivers : participantExchange.Delivers (replyFrame .debug participantReply) :=
    ⟨[], by decide +kernel⟩
  obtain ⟨visits, printed, -⟩ := listings_complete JsonLibrary.plain_readsDocuments
    ⟨_, run⟩ (show JsonLibrary.plain.dump Listing.participant.query = some _ from rfl)
    moved (fun output outputEq => Option.some.inj (reply.symm.trans outputEq) ▸ short)
    delivers (ascii "debugger")
  exact ⟨system, listed, visits, printed⟩

end UBusDebugger

end UBus
