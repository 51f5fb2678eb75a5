import Elms.Lib.JsonDumps
import Elms.Notifications.Consumer

/-!
# From publisher to log entry (`shared/rabbitmq_publisher.py`)

The four kinds of events with the payloads their publishers build, the body that
`publish_event` encodes them to, and the entry that the consumer logs for it. The
two sides share no schema: which fields survive is what the templates and the
fields of an entry happen to keep.
-/

namespace Elms

open Json

/-! ## §1  Publishing -/

/-- An event as its publisher builds it. -/
inductive PublishedEvent where
  | leaveApplied (employeeId managerId leaveRequestId : Text)
  | leaveApproved (employeeId leaveRequestId : Text)
  | leaveRejected (employeeId leaveRequestId reason : Text)
  | systemError (message service path : Text)
deriving DecidableEq, Repr

namespace PublishedEvent

def eventType : PublishedEvent → NotificationEventType
  | .leaveApplied _ _ _ => .LEAVE_APPLIED
  | .leaveApproved _ _ => .LEAVE_APPROVED
  | .leaveRejected _ _ _ => .LEAVE_REJECTED
  | .systemError _ _ _ => .SYSTEM_ERROR

/-- The dictionary that is handed to `publish_event`. -/
def payload : PublishedEvent → Dict Text Text
  | .leaveApplied employeeId managerId leaveRequestId =>
    ((Dict.empty.set (text "employee_id") employeeId).set
      (text "manager_id") managerId).set (text "leave_request_id") leaveRequestId
  | .leaveApproved employeeId leaveRequestId =>
    (Dict.empty.set (text "employee_id") employeeId).set
      (text "leave_request_id") leaveRequestId
  | .leaveRejected employeeId leaveRequestId reason =>
    ((Dict.empty.set (text "employee_id") employeeId).set
      (text "leave_request_id") leaveRequestId).set (text "reason") reason
  | .systemError message service path =>
    ((Dict.empty.set (text "message") message).set
      (text "service") service).set (text "path") path

/-- The event with the surrogate pairs of its fields joined. -/
def joined : PublishedEvent → PublishedEvent
  | .leaveApplied employeeId managerId leaveRequestId =>
    .leaveApplied employeeId.joinSurrogates managerId.joinSurrogates
      leaveRequestId.joinSurrogates
  | .leaveApproved employeeId leaveRequestId =>
    .leaveApproved employeeId.joinSurrogates leaveRequestId.joinSurrogates
  | .leaveRejected employeeId leaveRequestId reason =>
    .leaveRejected employeeId.joinSurrogates leaveRequestId.joinSurrogates
      reason.joinSurrogates
  | .systemError message service path =>
    .systemError message.joinSurrogates service.joinSurrogates path.joinSurrogates

end PublishedEvent

/-- `{"event_type": event_type.value, **payload}` -/
def messageBody (eventType : NotificationEventType) (payload : Dict Text Text) :
    Dict Text Text :=
  payload.entries.foldl (fun d p => d.set p.1 p.2)
    (Dict.empty.set (text "event_type") (text eventType.value))

/-- The body that `publish_event` hands to the exchange. -/
def publishEvent (eventType : NotificationEventType) (payload : Dict Text Text) :
    ByteArray :=
  encodeUtf8 (dumps (messageBody eventType payload))

def PublishedEvent.body (e : PublishedEvent) : ByteArray :=
  publishEvent e.eventType e.payload

/-- What the consumer does with a body, outside its `except` clauses. -/
def receive (py : Interpreter) (r : Readings) (store : LogStore) (body : ByteArray) :
    Except PyException LogStore := do
  let payload ← decodeBody py body
  processPayload py r store payload

/-! ## §2  The entry of an event -/

namespace PublishedEvent

/-- The members of the object that is read back, where no pair is joined. -/
def members (e : PublishedEvent) : List (Text × Json) :=
  (text "event_type", .str (text e.eventType.value)) ::
    e.payload.entries.map fun p => (p.1, .str p.2)

@[simp] theorem joined_eventType (e : PublishedEvent) :
    e.joined.eventType = e.eventType := by
  cases e <;> rfl

theorem joined_payload (e : PublishedEvent) : e.joined.payload.entries =
    e.payload.entries.map fun p => (p.1, p.2.joinSurrogates) := by
  cases e <;> rfl

theorem payload_keys (e : PublishedEvent) :
    ∀ p ∈ e.payload.entries, ∃ key, p.1 = text key := by
  cases e with
  | leaveApplied employeeId managerId leaveRequestId =>
      show ∀ p ∈ [(text "employee_id", employeeId), (text "manager_id", managerId),
        (text "leave_request_id", leaveRequestId)], _
      simp
  | leaveApproved employeeId leaveRequestId =>
      show ∀ p ∈ [(text "employee_id", employeeId),
        (text "leave_request_id", leaveRequestId)], _
      simp
  | leaveRejected employeeId leaveRequestId reason =>
      show ∀ p ∈ [(text "employee_id", employeeId),
        (text "leave_request_id", leaveRequestId), (text "reason", reason)], _
      simp
  | systemError message service path =>
      show ∀ p ∈ [(text "message", message), (text "service", service),
        (text "path", path)], _
      simp

theorem entries_messageBody (e : PublishedEvent) :
    (messageBody e.eventType e.payload).entries =
      (text "event_type", text e.eventType.value) :: e.payload.entries := by
  cases e <;> rfl

/-- Only the values can change on the way: the keys and the event type are
plain texts. -/
theorem readMembers_messageBody (e : PublishedEvent) :
    readMembers [] (messageBody e.eventType e.payload).entries = e.joined.members := by
  have hkeys : ∀ p ∈ (messageBody e.eventType e.payload).entries,
      ∃ key, p.1 = text key := by
    rw [entries_messageBody]
    intro p hp
    rcases List.mem_cons.mp hp with rfl | hp
    · exact ⟨"event_type", rfl⟩
    · exact e.payload_keys p hp
  rw [readMembers_eq_map hkeys [] (messageBody e.eventType e.payload).nodup_keys,
    entries_messageBody, members, joined_eventType, joined_payload]
  simp [Text.joinSurrogates_text]

theorem decodeBody_body (py : Interpreter) (e : PublishedEvent) :
    decodeBody py e.body = .ok (.object e.joined.members) := by
  rw [decodeBody, body, publishEvent, decodeUtf8_encodeUtf8]
  dsimp only
  rw [loads_dumps, readMembers_messageBody]
  rfl

theorem ofValue?_members (py : Interpreter) (e : PublishedEvent) :
    NotificationEventType.ofValue? (pyStr py (got e.members "event_type")) =
      some e.eventType := by
  have hgot : got e.members "event_type" = .str (text e.eventType.value) := by
    cases e <;> rfl
  rw [hgot]
  exact NotificationEventType.ofValue?_eq_some_iff.mpr rfl

/-- The entry that is logged for an event. -/
def entry (py : Interpreter) (r : Readings) (e : PublishedEvent) : NotificationLog :=
  logEntry py r e.eventType e.joined.members

/-- A published event is logged once, as what it is. -/
theorem receive_body (py : Interpreter) (r : Readings) (store : LogStore)
    (e : PublishedEvent) :
    receive py r store e.body = .ok (store ++ [e.entry py r]) := by
  rw [receive, decodeBody_body]
  show processPayload py r store (.object e.joined.members) = _
  rw [processPayload_object, ofValue?_members, joined_eventType]
  rfl

end PublishedEvent

/-! ## §3  What an entry tells -/

/-- There is no space in a time stamp. -/
theorem ne_space_of_mem_formatTimestamp {now : Calendar.Timestamp} {c : Char}
    (h : c ∈ (formatTimestamp now).toList) : c ≠ ' ' := by
  rintro rfl
  have hpadded (width n : Nat) : ' ' ∉ (Calendar.padded width n).toList := by
    intro hc
    exact absurd (Calendar.isDigit_of_mem_padded hc) (by decide)
  have hdate (d : Calendar.Date) : ' ' ∉ (Calendar.isoformat d).toList := by
    intro hc
    exact absurd (Calendar.mem_isoformat hc) (by decide)
  simp only [formatTimestamp, String.toList_append, List.mem_append, hpadded, hdate,
    false_or, or_false] at h
  revert h
  decide

/-- A message from the end of its time stamp on. -/
def withoutStamp (message : Text) : Text :=
  message.dropWhile (· ≠ CodePoint.ofChar ' ')

theorem withoutStamp_buildMessage (py : Interpreter) (now : Calendar.Timestamp)
    (eventType : NotificationEventType) (payload : List (Text × Json)) :
    withoutStamp (buildMessage py now eventType payload) =
      CodePoint.ofChar ' ' :: messageText py eventType payload := by
  have hstamp : ∀ c ∈ text ("[" ++ formatTimestamp now ++ "]"),
      decide (c ≠ CodePoint.ofChar ' ') = true := by
    intro c hc
    obtain ⟨d, hd, rfl⟩ := List.mem_map.mp hc
    rw [decide_eq_true_eq]
    intro he
    obtain rfl := CodePoint.ofChar_injective he
    simp only [String.toList_append, List.mem_append] at hd
    rcases hd with (hd | hd) | hd
    · exact absurd hd (by decide)
    · exact ne_space_of_mem_formatTimestamp hd rfl
    · exact absurd hd (by decide)
  have hsplit : text ("[" ++ formatTimestamp now ++ "] ") =
      text ("[" ++ formatTimestamp now ++ "]") ++ text " " := by
    rw [← text_append, String.append_assoc, String.append_assoc, String.append_assoc]
    rfl
  rw [withoutStamp, buildMessage, hsplit, List.append_assoc,
    List.dropWhile_append_of_pos hstamp]
  rfl

/-- The entries agree in everything but their ids and when they were made. -/
structure SameButForTime (l l' : NotificationLog) : Prop where
  eventType : l.eventType = l'.eventType
  employeeId : l.employeeId = l'.employeeId
  managerId : l.managerId = l'.managerId
  leaveRequestId : l.leaveRequestId = l'.leaveRequestId
  reason : l.reason = l'.reason
  message : withoutStamp l.message = withoutStamp l'.message

/-- Two errors with one message, from wherever they come. -/
def SameErrorMessage (e e' : PublishedEvent) : Prop :=
  ∃ message service path message' service' path',
    e = .systemError message service path ∧
    e' = .systemError message' service' path' ∧
    message.joinSurrogates = message'.joinSurrogates

namespace PublishedEvent

variable {py : Interpreter}

/-- Joined, an event leaves the same entry. -/
theorem entry_of_joined_eq {r r' : Readings} {e e' : PublishedEvent}
    (h : e.joined = e'.joined) : SameButForTime (e.entry py r) (e'.entry py r') := by
  have hentry (r : Readings) (e : PublishedEvent) :
      e.entry py r = logEntry py r e.joined.eventType e.joined.members := by
    rw [entry, joined_eventType]
  rw [hentry, hentry, h]
  refine ⟨rfl, rfl, rfl, rfl, rfl, ?_⟩
  show withoutStamp (buildMessage py r.stamped _ _) =
    withoutStamp (buildMessage py r'.stamped _ _)
  rw [withoutStamp_buildMessage, withoutStamp_buildMessage]

theorem message_systemError (r : Readings) (message service path : Text) :
    withoutStamp ((systemError message service path).entry py r).message =
      CodePoint.ofChar ' ' :: (text "SYSTEM_ERROR: " ++ message.joinSurrogates) := by
  show withoutStamp (buildMessage py r.stamped _ _) = _
  rw [withoutStamp_buildMessage]
  rfl

/-- Every field is kept by the entry or its message, except where an error came
from. -/
theorem sameButForTime_entry_iff {r r' : Readings} {e e' : PublishedEvent} :
    SameButForTime (e.entry py r) (e'.entry py r') ↔
      e.joined = e'.joined ∨ SameErrorMessage e e' := by
  constructor
  · intro h
    cases e with
    | leaveApplied employee manager request =>
        cases e' with
        | leaveApplied employee' manager' request' =>
            have hemployee : employee.joinSurrogates = employee'.joinSurrogates :=
              Json.str.inj h.employeeId
            have hmanager : manager.joinSurrogates = manager'.joinSurrogates :=
              Json.str.inj h.managerId
            have hrequest : request.joinSurrogates = request'.joinSurrogates :=
              Json.str.inj h.leaveRequestId
            left
            rw [joined, joined, hemployee, hmanager, hrequest]
        | _ => exact absurd h.eventType (by simp [entry, logEntry, eventType])
    | leaveApproved employee request =>
        cases e' with
        | leaveApproved employee' request' =>
            have hemployee : employee.joinSurrogates = employee'.joinSurrogates :=
              Json.str.inj h.employeeId
            have hrequest : request.joinSurrogates = request'.joinSurrogates :=
              Json.str.inj h.leaveRequestId
            left
            rw [joined, joined, hemployee, hrequest]
        | _ => exact absurd h.eventType (by simp [entry, logEntry, eventType])
    | leaveRejected employee request reason =>
        cases e' with
        | leaveRejected employee' request' reason' =>
            have hemployee : employee.joinSurrogates = employee'.joinSurrogates :=
              Json.str.inj h.employeeId
            have hrequest : request.joinSurrogates = request'.joinSurrogates :=
              Json.str.inj h.leaveRequestId
            have hreason : reason.joinSurrogates = reason'.joinSurrogates :=
              Json.str.inj h.reason
            left
            rw [joined, joined, hemployee, hrequest, hreason]
        | _ => exact absurd h.eventType (by simp [entry, logEntry, eventType])
    | systemError message service path =>
        cases e' with
        | systemError message' service' path' =>
            -- the message is the only part of an error that the entry shows
            have hmessage := h.message
            rw [message_systemError, message_systemError] at hmessage
            right
            refine ⟨message, service, path, message', service', path', rfl, rfl, ?_⟩
            exact List.append_cancel_left (List.cons.inj hmessage).2
        | _ => exact absurd h.eventType (by simp [entry, logEntry, eventType])
  · rintro (h | ⟨message, service, path, message', service', path', rfl, rfl, h⟩)
    · exact entry_of_joined_eq h
    · refine ⟨rfl, rfl, rfl, rfl, rfl, ?_⟩
      rw [message_systemError, message_systemError, h]

end PublishedEvent

/-! ## §4  Publisher and consumer -/

/-- Each of the two events is logged once and as what it is, and if they are
different events, then so are their entries. -/
structure Agree (py : Interpreter) (e e' : PublishedEvent) : Prop where
  logged : ∀ x ∈ [e, e'], ∀ r store, ∃ log : NotificationLog,
    receive py r store x.body = .ok (store ++ [log]) ∧ log.eventType = x.eventType
  distinct : e ≠ e' → ∀ r r' store store' log log',
    receive py r store e.body = .ok (store ++ [log]) →
    receive py r' store' e'.body = .ok (store' ++ [log']) →
    ¬ SameButForTime log log'

/-- **What is lost between publisher and consumer.** Two events are told apart
unless they are errors with the same message, or become equal when surrogate
pairs are joined. -/
theorem publisher_consumer_agree_iff (py : Interpreter) (e e' : PublishedEvent) :
    Agree py e e' ↔
      (e ≠ e' → e.joined ≠ e'.joined ∧ ¬ SameErrorMessage e e') := by
  constructor
  · intro h hne
    have hdistinct := h.distinct hne ⟨"", 0, 0⟩ ⟨"", 0, 0⟩ [] [] _ _
      (e.receive_body py _ _) (e'.receive_body py _ _)
    rw [PublishedEvent.sameButForTime_entry_iff] at hdistinct
    exact not_or.mp hdistinct
  · intro h
    refine ⟨?_, ?_⟩
    · intro x _ r store
      exact ⟨x.entry py r, x.receive_body py r store, rfl⟩
    · intro hne r r' store store' log log' hlog hlog' hsame
      rw [e.receive_body] at hlog
      rw [e'.receive_body] at hlog'
      obtain rfl : e.entry py r = log := by simpa using hlog
      obtain rfl : e'.entry py r' = log' := by simpa using hlog'
      obtain ⟨hjoined, hmessage⟩ := h hne
      rcases PublishedEvent.sameButForTime_entry_iff.mp hsame with h | h
      · exact hjoined h
      · exact hmessage h

/-- One error in two services is logged as one event twice. -/
theorem publisher_consumer_lost_service :
    ¬ Agree defaultInterpreter
      (.systemError (text "division by zero") (text "manager-service") (text "/leaves"))
      (.systemError (text "division by zero") (text "leave-request-service")
        (text "/leaves")) := by
  intro h
  have hne : PublishedEvent.systemError (text "division by zero")
      (text "manager-service") (text "/leaves") ≠
      .systemError (text "division by zero") (text "leave-request-service")
        (text "/leaves") := by
    decide
  refine h.distinct hne ⟨"", 0, 0⟩ ⟨"", 0, 0⟩ [] [] _ _
    (PublishedEvent.receive_body _ _ _ _) (PublishedEvent.receive_body _ _ _ _) ?_
  rw [PublishedEvent.sameButForTime_entry_iff]
  exact Or.inr ⟨_, _, _, _, _, _, rfl, rfl, rfl⟩

namespace PublishedEvent

/-- An event of the leave services, whose fields are strings of characters. -/
def ofEvent : Event → PublishedEvent
  | .leaveApplied employeeId managerId leaveRequestId =>
    .leaveApplied (text employeeId) (text managerId) (text leaveRequestId)
  | .leaveApproved employeeId leaveRequestId =>
    .leaveApproved (text employeeId) (text leaveRequestId)
  | .leaveRejected employeeId leaveRequestId reason =>
    .leaveRejected (text employeeId) (text leaveRequestId) (text reason)

theorem joined_ofEvent (e : Event) : (ofEvent e).joined = ofEvent e := by
  cases e <;> simp [ofEvent, joined, Text.joinSurrogates_text]

/-- No two events of the leave services leave the same entry. -/
theorem ofEvent_entry_injective {py : Interpreter} {r r' : Readings} {e e' : Event}
    (h : SameButForTime ((ofEvent e).entry py r) ((ofEvent e').entry py r')) :
    e = e' := by
  rcases sameButForTime_entry_iff.mp h with h | ⟨_, _, _, _, _, _, he, _, _⟩
  · rw [joined_ofEvent, joined_ofEvent] at h
    cases e <;> cases e' <;> simp_all [ofEvent, text_injective.eq_iff]
  · cases e <;> cases he

end PublishedEvent

end Elms
