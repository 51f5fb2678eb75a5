import Elms.Lib.Calendar
import Elms.Lib.Json
import Elms.Shared.Basic
import Mathlib.Data.List.TakeWhile

/-!
# The notification consumer (`notification_service/`)

The inner loop of `run_consumer`: every delivered body is decoded, parsed and
turned into a log entry, with two `except` clauses around the two halves. A body
can fail in many ways, and not all of them are covered: what `json.loads` returns
need not be an object, and it raises exceptions that are not `JSONDecodeError`.
-/

namespace Elms

open Calendar Json

/-! ## §1  Events and log entries (`models.py`, `store.py`) -/

namespace NotificationEventType

/-- `NotificationEventType(x)`, `none` for the `ValueError`. -/
def ofValue? (x : Text) : Option NotificationEventType :=
  [.LEAVE_APPLIED, .LEAVE_APPROVED, .LEAVE_REJECTED, .SYSTEM_ERROR].find? fun e =>
    text e.value = x

theorem ofValue?_eq_some_iff {x : Text} {e : NotificationEventType} :
    ofValue? x = some e ↔ x = text e.value := by
  constructor
  · intro h
    have := List.find?_some h
    simpa [eq_comm] using this
  · rintro rfl
    cases e <;> decide

/-- Every event type's name begins with an `L` or an `S`. -/
theorem head_text_value (e : NotificationEventType) :
    ∃ c ∈ ['L', 'S'], (text e.value).head? = some (CodePoint.ofChar c) := by
  cases e with
  | LEAVE_APPLIED => exact ⟨'L', by decide, by decide⟩
  | LEAVE_APPROVED => exact ⟨'L', by decide, by decide⟩
  | LEAVE_REJECTED => exact ⟨'L', by decide, by decide⟩
  | SYSTEM_ERROR => exact ⟨'S', by decide, by decide⟩

end NotificationEventType

/-- The optional fields hold whatever the payload had; `None` is `Json.null`. -/
structure NotificationLog where
  logId : String
  eventType : NotificationEventType
  employeeId : Json
  managerId : Json
  leaveRequestId : Json
  reason : Json
  message : Text
  timestamp : Timestamp

/-- `notification_logs_store`, which is only ever appended to. -/
abbrev LogStore := List NotificationLog

def addLog (store : LogStore) (log : NotificationLog) : LogStore := store ++ [log]

/-! ## §2  Messages -/

/-- The ordinal of 1970-01-01. -/
def EPOCH_ORDINAL : Nat := 719163

/-- `_format_timestamp`, of a time in microseconds from 1970 on. -/
def formatTimestamp (value : Timestamp) : String :=
  let seconds := value / 1000000
  let second := seconds % 86400
  isoformat ⟨EPOCH_ORDINAL + seconds / 86400⟩ ++ "T" ++ padded 2 (second / 3600) ++
    ":" ++ padded 2 (second / 60 % 60) ++ ":" ++ padded 2 (second % 60) ++ "Z"

example : formatTimestamp 1709210096123456 = "2024-02-29T12:34:56Z" := by decide

section Messages

variable (py : Interpreter)

/-- `payload.get(key)` -/
def got (payload : List (Text × Json)) (key : String) : Json :=
  (get? payload (text key)).getD .null

/-- A message without its time stamp. -/
def messageText (eventType : NotificationEventType) (payload : List (Text × Json)) :
    Text :=
  let field (key : String) : Text := pyStr py (got payload key)
  match eventType with
  | .LEAVE_APPLIED =>
    text "LEAVE_APPLIED: Employee " ++ field "employee_id" ++
      text " submitted leave request " ++ field "leave_request_id" ++
      text ". Manager " ++ field "manager_id" ++ text " notified."
  | .LEAVE_APPROVED =>
    text "LEAVE_APPROVED: Leave request " ++ field "leave_request_id" ++
      text " approved. Employee " ++ field "employee_id" ++ text " notified."
  | .LEAVE_REJECTED =>
    text "LEAVE_REJECTED: Leave request " ++ field "leave_request_id" ++
      text " rejected. Reason: " ++ field "reason" ++
      text ". Employee " ++ field "employee_id" ++ text " notified."
  | .SYSTEM_ERROR => text "SYSTEM_ERROR: " ++ field "message"

/-- `build_message`. The source's last line is for other event types, of which
there are none. -/
def buildMessage (now : Timestamp) (eventType : NotificationEventType)
    (payload : List (Text × Json)) : Text :=
  text ("[" ++ formatTimestamp now ++ "] ") ++ messageText py eventType payload

end Messages

/-! ## §3  One payload -/

/-- What an entry takes from its surroundings: a fresh `uuid4` and the clock,
which is read once for the message and once for the entry. -/
structure Readings where
  logId : String
  stamped : Timestamp
  recorded : Timestamp

/-- The exceptions that decoding and processing can raise, and those that are
caught. -/
inductive PyException where
  | unicodeDecodeError
  | jsonDecodeError
  | valueError
  | keyError
  | attributeError
  | recursionError
deriving DecidableEq, Repr

namespace PyException

def ofLoadError : LoadError → PyException
  | .jsonDecodeError => .jsonDecodeError
  | .valueError => .valueError
  | .recursionError => .recursionError

/-- `except (UnicodeDecodeError, json.JSONDecodeError)` -/
def isUndecodable : PyException → Bool
  | .unicodeDecodeError | .jsonDecodeError => true
  | _ => false

/-- `except (KeyError, ValueError)`: the decoding errors are `ValueError`s. -/
def isUnsupported : PyException → Bool
  | .keyError | .valueError | .unicodeDecodeError | .jsonDecodeError => true
  | _ => false

end PyException

section Consumer

variable (py : Interpreter)

/-- The entry for a payload whose event type is known. -/
def logEntry (r : Readings) (eventType : NotificationEventType)
    (payload : List (Text × Json)) : NotificationLog where
  logId := r.logId
  eventType := eventType
  employeeId := got payload "employee_id"
  managerId := got payload "manager_id"
  leaveRequestId := got payload "leave_request_id"
  reason := got payload "reason"
  message := buildMessage py r.stamped eventType payload
  timestamp := r.recorded

/-- `_process_payload`: only a dictionary has `get`. -/
def processPayload (r : Readings) (store : LogStore) (payload : Json) :
    Except PyException LogStore :=
  match payload with
  | .object members =>
    match NotificationEventType.ofValue? (pyStr py (got members "event_type")) with
    | some eventType => .ok (addLog store (logEntry py r eventType members))
    | none => .error .valueError
  | _ => .error .attributeError

/-! ## §4  The loop -/

/-- A message from the queue, with what processing it would read. -/
structure Delivery where
  body : ByteArray
  readings : Readings

/-- `json.loads(message.body.decode("utf-8"))` -/
def decodeBody (body : ByteArray) : Except PyException Json :=
  match decodeUtf8 body with
  | none => .error .unicodeDecodeError
  | some s => (loads py s).mapError PyException.ofLoadError

/-- The body of the loop: an exception that neither clause catches leaves it. -/
def onMessage (store : LogStore) (d : Delivery) : Except PyException LogStore :=
  match decodeBody py d.body with
  | .error e => if e.isUndecodable then .ok store else .error e
  | .ok payload =>
    match processPayload py d.readings store payload with
    | .error e => if e.isUnsupported then .ok store else .error e
    | .ok store => .ok store

/-- The inner loop of `run_consumer`: the store it leaves, and the exception it
was left with. -/
def consume : List Delivery → LogStore → LogStore × Option PyException
  | [], store => (store, none)
  | d :: ds, store =>
    match onMessage py store d with
    | .error e => (store, some e)
    | .ok store => consume ds store

/-! ## §5  What the loop is for -/

/-- The event that a body asks to be logged: a JSON object whose event type is
one of the four names. -/
def supportedEvent? (body : ByteArray) :
    Option (NotificationEventType × List (Text × Json)) :=
  match (decodeUtf8 body).map (loads py) with
  | some (.ok (.object members)) =>
    match get? members (text "event_type") with
    | some (.str name) =>
      (NotificationEventType.ofValue? name).map fun eventType => (eventType, members)
    | _ => none
  | _ => none

/-- The entry a delivery should leave, if any. -/
def loggedEntry (d : Delivery) : Option NotificationLog :=
  (supportedEvent? py d.body).map fun e => logEntry py d.readings e.1 e.2

/-- The exception a body lets out of the loop, if any. -/
def escaping? (body : ByteArray) : Option PyException :=
  match (decodeUtf8 body).map (loads py) with
  | some (.ok (.object _)) => none
  | some (.ok _) => some .attributeError
  | some (.error .valueError) => some .valueError
  | some (.error .recursionError) => some .recursionError
  | _ => none

variable {py}

/-- Only a string is an event type: no other value is printed as one. -/
theorem ofValue?_pyStr_of_not_str {v : Json} (hv : ∀ s, v ≠ .str s) :
    NotificationEventType.ofValue? (pyStr py v) = none := by
  rw [Option.eq_none_iff_forall_ne_some]
  intro e he
  rw [NotificationEventType.ofValue?_eq_some_iff] at he
  obtain ⟨c, hc, hname⟩ := NotificationEventType.head_text_value e
  rcases head_pyStr py v with ⟨s, hs⟩ | ⟨d, hprinted, hd⟩
  · exact hv s hs
  · -- no first character is both a name's and another value's
    rw [he, hname, Option.some.injEq] at hprinted
    obtain rfl := CodePoint.ofChar_injective hprinted
    rcases List.mem_pair.mp hc with rfl | rfl
    · exact absurd hd (by decide)
    · exact absurd hd (by decide)

theorem processPayload_object (r : Readings) (store : LogStore)
    (members : List (Text × Json)) :
    processPayload py r store (.object members) =
      match NotificationEventType.ofValue?
          (pyStr py (got members "event_type")) with
      | some eventType => .ok (addLog store (logEntry py r eventType members))
      | none => .error .valueError := rfl

/-- An object is logged when its event type is supported, and else refused with
an error that is caught. -/
theorem processPayload_eq {body : ByteArray} {s : List Char}
    {members : List (Text × Json)} (hs : decodeUtf8 body = some s)
    (hmembers : loads py s = .ok (.object members)) (r : Readings)
    (store : LogStore) :
    processPayload py r store (.object members) =
      match supportedEvent? py body with
      | some e => .ok (addLog store (logEntry py r e.1 e.2))
      | none => .error .valueError := by
  have hsupported : supportedEvent? py body =
      (NotificationEventType.ofValue? (pyStr py (got members "event_type"))).map
        fun eventType => (eventType, members) := by
    rw [supportedEvent?, hs, Option.map_some, hmembers, got]
    dsimp only
    cases hget : get? members (text "event_type") with
    | none =>
        have hnull : NotificationEventType.ofValue? (pyStr py .null) = none :=
          ofValue?_pyStr_of_not_str (by simp)
        rw [Option.getD_none, hnull]
        rfl
    | some v =>
        rw [Option.getD_some]
        cases v with
        | str name => rfl
        | _ =>
            rw [ofValue?_pyStr_of_not_str (by simp)]
            rfl
  rw [processPayload_object, hsupported]
  cases NotificationEventType.ofValue? (pyStr py (got members "event_type")) <;> rfl

/-- One turn of the loop: a body that lets no exception out adds what it asks
for, which is nothing unless it is supported. -/
theorem onMessage_eq (store : LogStore) (d : Delivery) :
    onMessage py store d =
      match escaping? py d.body with
      | some e => .error e
      | none => .ok (store ++ (loggedEntry py d).toList) := by
  rw [onMessage, decodeBody, escaping?, loggedEntry]
  cases hs : decodeUtf8 d.body with
  | none => simp [supportedEvent?, hs, PyException.isUndecodable]
  | some s =>
      cases hv : loads py s with
      | error e =>
          cases e <;> simp [supportedEvent?, hs, hv, Except.mapError,
            PyException.ofLoadError, PyException.isUndecodable]
      | ok v =>
          cases v with
          | object members =>
              -- the only error left is the `ValueError` of the enumeration
              simp only [Except.mapError, Option.map_some, hv]
              rw [processPayload_eq hs hv]
              cases supportedEvent? py d.body with
              | none => simp [PyException.isUnsupported]
              | some e => rfl
          | _ => simp [hv, Except.mapError, processPayload, PyException.isUnsupported]

/-- The loop goes on until the first body that lets an exception out, and has
logged by then what the bodies before it ask for. -/
theorem consume_eq (ds : List Delivery) (store : LogStore) :
    consume py ds store =
      (store ++ (ds.takeWhile fun d => (escaping? py d.body).isNone).filterMap
          (loggedEntry py),
        ds.findSome? fun d => escaping? py d.body) := by
  induction ds generalizing store with
  | nil => simp [consume]
  | cons d ds ih =>
      rw [consume, onMessage_eq]
      cases hesc : escaping? py d.body with
      | some e => simp [hesc]
      | none =>
          have hentry : (loggedEntry py d).toList ++
              (ds.takeWhile fun d => (escaping? py d.body).isNone).filterMap
                (loggedEntry py) =
              (d :: ds.takeWhile fun d => (escaping? py d.body).isNone).filterMap
                (loggedEntry py) := by
            cases hd : loggedEntry py d <;> simp [hd]
          dsimp only
          rw [ih, List.append_assoc, hentry,
            List.takeWhile_cons_of_pos (by simp [hesc]), List.findSome?_cons, hesc]

/-! ## §6  Which bodies are survived -/

variable (py)

/-- Every delivery was gone through, and the store has one more entry for each
supported event, in the order of delivery. -/
structure Survives (store : LogStore) (ds : List Delivery) : Prop where
  raised : (consume py ds store).2 = none
  skipped : ∀ d ∈ ds, supportedEvent? py d.body = none →
    ∀ store', onMessage py store' d = .ok store'
  logged : (consume py ds store).1 = store ++ ds.filterMap (loggedEntry py)

/-- The body is JSON, but not an object; or reading it runs into the limit on
the digits of an integer or on the depth of containers. -/
def Escapes (body : ByteArray) : Prop :=
  ∃ s, decodeUtf8 body = some s ∧
    ((∃ v, loads py s = .ok v ∧ ∀ members, v ≠ .object members) ∨
      loads py s = .error .valueError ∨ loads py s = .error .recursionError)

variable {py}

theorem escaping?_eq_none_iff {body : ByteArray} :
    escaping? py body = none ↔ ¬ Escapes py body := by
  unfold escaping? Escapes
  cases hs : decodeUtf8 body with
  | none => simp
  | some s =>
      cases hv : loads py s with
      | error e => cases e <;> simp [hv]
      | ok v => cases v <;> simp [hv]

/-- **The consumer survives exactly the bodies that do not escape.** -/
theorem consumer_survives_iff (store : LogStore) (ds : List Delivery) :
    Survives py store ds ↔ ∀ d ∈ ds, ¬ Escapes py d.body := by
  constructor
  · intro h d hd
    have hraised := h.raised
    rw [consume_eq, List.findSome?_eq_none_iff] at hraised
    exact escaping?_eq_none_iff.mp (hraised d hd)
  · intro h
    have hnone : ∀ d ∈ ds, escaping? py d.body = none :=
      fun d hd => escaping?_eq_none_iff.mpr (h d hd)
    refine ⟨?_, ?_, ?_⟩
    · rw [consume_eq, List.findSome?_eq_none_iff]
      exact hnone
    · intro d hd hunsupported store'
      rw [onMessage_eq, hnone d hd, loggedEntry, hunsupported]
      simp
    · have hall : (ds.takeWhile fun d => (escaping? py d.body).isNone) = ds := by
        rw [List.takeWhile_eq_self_iff]
        intro d hd
        rw [hnone d hd]
        rfl
      rw [consume_eq, hall]

/-- An interpreter with the default limits, for texts of printable ASCII that
hold no floats. -/
def defaultInterpreter : Interpreter where
  maxDepth := 990
  maxDepth_pos := by decide
  maxStrDigits := 4300
  isPrintable := fun _ => false
  floatRepr := fun _ => "0.0"
  floatRepr_head := fun _ => ⟨'0', by decide, by decide⟩

/-- A body that is an empty array ends the loop. -/
theorem consumer_lost_array :
    ¬ Survives defaultInterpreter []
      [{ body := encodeUtf8 ['[', ']'], readings := ⟨"log-1", 0, 0⟩ }] := by
  intro h
  have hloads : loads defaultInterpreter ['[', ']'] = .ok (.array []) := by rfl
  have hraised : onMessage defaultInterpreter []
      { body := encodeUtf8 ['[', ']'], readings := ⟨"log-1", 0, 0⟩ } =
        .error .attributeError := by
    rw [onMessage, decodeBody, decodeUtf8_encodeUtf8]
    dsimp only
    rw [hloads]
    rfl
  have := h.raised
  rw [consume, hraised] at this
  cases this

end Consumer

end Elms
