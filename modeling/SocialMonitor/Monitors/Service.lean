import SocialMonitor.Async.Program
import SocialMonitor.Js.Text
import SocialMonitor.Listing

/-!
# Monitor targets

`MonitorService` over the operations of its repository.
-/

namespace SocialMonitor.Monitors

open Async

inductive Field (α : Type) where
  | undefined
  | null
  | value (a : α)

def Field.toOption {α : Type} : Field α → Option α
  | .value a => some a
  | _ => none

structure CreateMonitorDto where
  type : MonitorType
  name : String
  username : Field String
  externalId : Field String

structure UpdateMonitorDto where
  name : Field String
  username : Field String
  externalId : Field String
  enabled : Field Bool

structure MonitorDto where
  id : Id
  type : MonitorType
  name : String
  username : Option String
  externalId : String
  enabled : Bool
  lastMessageAt : Option Time
deriving DecidableEq, Repr

structure MonitorData where
  type : MonitorType
  name : String
  username : Option String
  externalId : String

inductive Op where
  | findUnique (id : Id)
  | findUniqueByTypeExternalId (type : MonitorType) (externalId : String)
  | create (data : MonitorData)
  | update (id : Id) (data : UpdateMonitorDto)
  | delete (id : Id)
  | emit (event : SseEvent)

abbrev Answer : Op → Type
  | .findUnique _ => Option MonitorTarget
  | .findUniqueByTypeExternalId _ _ => Option MonitorTarget
  | .create _ => MonitorTarget
  | .update _ _ => MonitorTarget
  | .delete _ => Unit
  | .emit _ => Unit

abbrev Api := Program Op Answer ApiError

/-! ## The operations on the store -/

def uniqueViolation : ApiError :=
  .prisma "P2002" "Unique constraint failed on the fields: (type,externalId)"

def recordNotFound : ApiError :=
  .prisma "P2025" "An operation failed because it depends on one or more records that were required but not found."

def nullViolation : ApiError := .other "Argument must not be null."

def targetByKey? (s : Store) (type : MonitorType) (externalId : String) : Option MonitorTarget :=
  s.targets.find? fun t => t.type = type && t.externalId = externalId

/-- The defaults of the table. -/
def targetRow (data : MonitorData) (id : Id) (createdAt : Time) : MonitorTarget where
  id := id
  type := data.type
  name := data.name
  username := data.username
  externalId := data.externalId
  enabled := true
  lastMessageAt := none
  createdAt := createdAt

def createTarget (data : MonitorData) (createdAt : Time) (s : Store) :
    Except ApiError MonitorTarget × Store :=
  if (targetByKey? s data.type data.externalId).isSome then (.error uniqueViolation, s)
  else
    let row := targetRow data s.nextId createdAt
    (.ok row, { s with targets := s.targets ++ [row], nextId := s.nextId + 1 })

/-- A column that must not be null. -/
def setColumn {α : Type} (old : α) : Field α → Except ApiError α
  | .undefined => .ok old
  | .null => .error nullViolation
  | .value a => .ok a

theorem setColumn_ok {α : Type} {old new : α} {f : Field α} (h : setColumn old f = .ok new) :
    new = f.toOption.getD old := by
  cases f with
  | undefined => exact (Except.ok.inj h).symm
  | null => exact absurd h (by simp [setColumn])
  | value a => exact (Except.ok.inj h).symm

def setUsername (old : Option String) : Field String → Option String
  | .undefined => old
  | .null => none
  | .value a => some a

def updatedRow (data : UpdateMonitorDto) (t : MonitorTarget) : Except ApiError MonitorTarget := do
  let name ← setColumn t.name data.name
  let externalId ← setColumn t.externalId data.externalId
  let enabled ← setColumn t.enabled data.enabled
  return { t with
    name := name, username := setUsername t.username data.username
    externalId := externalId, enabled := enabled }

theorem updatedRow_ok {data : UpdateMonitorDto} {t row : MonitorTarget}
    (h : updatedRow data t = .ok row) : row = { t with
      name := data.name.toOption.getD t.name
      username := setUsername t.username data.username
      externalId := data.externalId.toOption.getD t.externalId
      enabled := data.enabled.toOption.getD t.enabled } := by
  unfold updatedRow at h
  cases hname : setColumn t.name data.name with
  | error e => simp [hname, bind, Except.bind] at h
  | ok name =>
      cases hext : setColumn t.externalId data.externalId with
      | error e => simp [hname, hext, bind, Except.bind] at h
      | ok externalId =>
          cases henabled : setColumn t.enabled data.enabled with
          | error e => simp [hname, hext, henabled, bind, Except.bind] at h
          | ok enabled =>
              simp only [hname, hext, henabled, bind, Except.bind, pure, Except.pure,
                Except.ok.injEq] at h
              rw [← h, setColumn_ok hname, setColumn_ok hext, setColumn_ok henabled]

def updateTarget (id : Id) (data : UpdateMonitorDto) (s : Store) :
    Except ApiError MonitorTarget × Store :=
  match s.target? id with
  | none => (.error recordNotFound, s)
  | some t =>
      match updatedRow data t with
      | .error error => (.error error, s)
      | .ok row =>
          if s.targets.any fun t' =>
              t'.id ≠ id && t'.type = row.type && t'.externalId = row.externalId then
            (.error uniqueViolation, s)
          else
            (.ok row, { s with targets := s.targets.map fun t' => if t'.id = id then row else t' })

/-- The messages of the target and their tasks go with it. -/
def deleteTarget (id : Id) (s : Store) : Except ApiError Unit × Store :=
  match s.target? id with
  | none => (.error recordNotFound, s)
  | some _ =>
      (.ok (), { s with
        targets := s.targets.filter fun t => t.id ≠ id
        messages := s.messages.filter fun m => m.targetId ≠ id
        tasks := s.tasks.filter fun t =>
          !s.messages.any fun m => m.id = t.messageId && m.targetId = id })

def exec (c : Choice) : (op : Op) → Store → Except ApiError (Answer op) × Store
  | .findUnique id, s => c.query s (.ok (s.target? id), s)
  | .findUniqueByTypeExternalId type externalId, s =>
      c.query s (.ok (targetByKey? s type externalId), s)
  | .create data, s => c.query s (createTarget data c.now s)
  | .update id data, s => c.query s (updateTarget id data s)
  | .delete id, s => c.query s (deleteTarget id s)
  | .emit event, s => (.ok (), { s with events := s.events ++ [event] })

/-! ## The service -/

def toDto (t : MonitorTarget) : MonitorDto where
  id := t.id
  type := t.type
  name := t.name
  username := t.username
  externalId := t.externalId
  enabled := t.enabled
  lastMessageAt := t.lastMessageAt

def monitorExists : ApiError :=
  .http .conflict "Monitor target already exists" "MONITOR_EXISTS"

def notFound (id : Id) : ApiError :=
  .http .notFound s!"Monitor target not found: {id}" "MONITOR_NOT_FOUND"

/-- `value?.trim()`, where the empty string counts as missing. -/
def trimmed (f : Field String) : Option String :=
  (f.toOption.map Js.trim).bind Js.nonempty?

def normalizeCreate (dto : CreateMonitorDto) : Except ApiError MonitorData :=
  let name := Js.trim dto.name
  let username := trimmed dto.username
  let externalId := trimmed dto.externalId
  match dto.type, externalId.or username, externalId with
  | .xUser, some externalId, _ => .ok ⟨.xUser, name, username, externalId⟩
  | .xUser, none, _ =>
      .error (.http .badRequest "X_USER requires username or externalId" "INVALID_MONITOR")
  | type, _, some externalId => .ok ⟨type, name, username, externalId⟩
  | type, _, none =>
      .error (.http .badRequest s!"{type.name} requires externalId (chat id)"
        "INVALID_MONITOR")

def ensureExists (id : Id) : Api MonitorTarget := do
  let some monitor ← Program.await (Op.findUnique id) | throw (notFound id)
  return monitor

def create (dto : CreateMonitorDto) : Api MonitorDto := do
  let normalized ← Program.ofExcept (normalizeCreate dto)
  let existing ← Program.await
    (Op.findUniqueByTypeExternalId normalized.type normalized.externalId)
  if existing.isSome then throw monitorExists
  let created ← Program.await (Op.create normalized)
  return toDto created

def update (id : Id) (dto : UpdateMonitorDto) : Api MonitorDto := do
  let _ ← ensureExists id
  let updated ← Program.await (Op.update id dto)
  return toDto updated

def remove (id : Id) : Api Bool := do
  let _ ← ensureExists id
  Program.await (Op.delete id)
  return true

def setEnabled (id : Id) (enabled : Bool) : Api MonitorDto := do
  let _ ← ensureExists id
  let updated ← Program.await (Op.update id ⟨.undefined, .undefined, .undefined, .value enabled⟩)
  Program.await (Op.emit (.monitorStatusChanged id enabled updated.type))
  return toDto updated

structure MonitorCheck where
  valid : Bool
  name : String
deriving DecidableEq, Repr

def hasRequiredParams (t : MonitorTarget) : Bool :=
  match t.type with
  | .xUser => t.username.any (· ≠ "") || t.externalId ≠ ""
  | _ => t.externalId ≠ ""

def check (id : Id) : Api MonitorCheck := do
  let some monitor ← Program.await (Op.findUnique id) | throw (notFound id)
  return ⟨hasRequiredParams monitor, monitor.name⟩

/-! ## Listing -/

structure MonitorQueryDto where
  page : Option ℕ
  pageSize : Option ℕ
  type : Option MonitorType
  enabled : Option Bool
  keyword : Option String

/-- `Prisma.MonitorTargetWhereInput`. -/
structure MonitorWhere where
  type : Option MonitorType
  enabled : Option Bool
  keyword : Option String

def MonitorQueryDto.filter (query : MonitorQueryDto) : MonitorWhere where
  type := query.type
  enabled := query.enabled
  keyword := query.keyword.bind Js.nonempty?

def MonitorWhere.selects (contains : String → String → Bool) (w : MonitorWhere)
    (t : MonitorTarget) : Bool :=
  w.type.all (fun type => t.type = type) && w.enabled.all (fun enabled => t.enabled = enabled) &&
    w.keyword.all fun keyword =>
      contains t.name keyword || t.username.any (fun username => contains username keyword) ||
        contains t.externalId keyword

def monitorSource (contains : String → String → Bool) :
    Listing.Source MonitorWhere MonitorTarget MonitorTarget where
  rows := Store.targets
  selects := MonitorWhere.selects contains
  orderBy := MonitorTarget.createdAt
  related _ t := some t

def list (query : MonitorQueryDto) : Program (Listing.Op MonitorWhere)
    (Listing.Answer MonitorWhere MonitorTarget) ApiError (Listing.Paginated MonitorDto) :=
  Listing.list toDto query.filter query.page query.pageSize

end SocialMonitor.Monitors
