import ContractNet.Digest.Sha256
import ContractNet.Json.Basic
import ContractNet.Text.Quoted
import ContractNet.Time.Zoned

/-!
# The history of compilations

`History` keeps the compilations that were recorded.  A run is handed in with a time of any zone and
kept with the text of that time in universal time.  Runs are listed newest first by those texts; of
runs with the same one, the one recorded later comes first.  A text that is no time of the years 0
to 9999 cannot be read back.

* `History.record` adds a run and completes it;
* `History.get`, `History.byContent` and `History.list` look runs up.
-/

namespace ContractNet

/-- A recorded compilation. -/
structure Run where
  id : Text
  contract : Text
  /-- The content identifier of the document. -/
  cid : Text
  places : Int
  transitions : Int
  arcs : Int
  valid : Bool
  document : Text
  created : ZonedTime
deriving DecidableEq

/-- The run as JSON, without its document. -/
def Run.toJson (r : Run) : Json :=
  .record [("id", some (.string r.id)), ("contract", some (.string r.contract)),
    ("cid", some (.string r.cid)), ("places", some (.int r.places)),
    ("transitions", some (.int r.transitions)), ("arcs", some (.int r.arcs)),
    ("valid", some (.bool r.valid)), ("createdAt", some (.string r.created.toText))]

/-- Why a run cannot be recorded or found. -/
inductive HistoryError where
  /-- No run has the given id or content. -/
  | notFound (key : Text)
  /-- The id is that of another run. -/
  | sharedId (id : Text)
  /-- The time of a run cannot be read back. -/
  | badTime (id time : Text) (e : ZonedTime.ParseError)
deriving DecidableEq

/-- The layout of the times of runs. -/
def timeLayout : Text := "2006-01-02T15:04:05.000000000Z07:00"

/-- Wording of the errors. -/
def HistoryError.message : HistoryError → Text
  | notFound key => "archive: run not found: " ++ key
  | sharedId id =>
    "record run " ++ id ++ ": constraint failed: UNIQUE constraint failed: runs.id (1555)"
  | badTime id time e =>
    "run " ++ id ++ ": bad timestamp " ++ time.quoted ++
      ": parsing time " ++ time.quoted ++ " as " ++
      timeLayout.quoted ++ ": cannot parse " ++ e.rest.quoted ++ " as " ++ e.expected.quoted

/-- A run as it is kept: its time is a text. -/
structure Row where
  run : Run
  time : Text

/-- The kept runs, the one recorded last first. -/
structure History where
  rows : List Row := []

/-- Read a run back with its time. -/
def Row.read (row : Row) : Except HistoryError Run :=
  match ZonedTime.parseFixed row.time with
  | .ok t => .ok { row.run with created := t }
  | .error e => .error (.badTime row.run.id row.time e)

namespace History

/-- The run with what it lacks: an id, the identifier of its document and a time.  Its time is
carried over to universal time. -/
def complete (freshId : Text) (now : ZonedTime) (r : Run) : Run :=
  let created := if (r.created : Instant) = Instant.zero then now else r.created
  { r with
    id := if r.id.isEmpty then freshId else r.id
    cid := if r.cid.isEmpty then contentId r.document else r.cid
    created := created.utc }

/-- Add a run, completed. -/
def record (h : History) (freshId : Text) (now : ZonedTime) (r : Run) :
    Except HistoryError (Run × History) :=
  let r := complete freshId now r
  if h.rows.any fun row => row.run.id = r.id then .error (.sharedId r.id)
  else .ok (r, ⟨⟨r, r.created.toFixed⟩ :: h.rows⟩)

/-- The rows newest first by the texts of their times; of equal ones the later recorded first. -/
def newestFirst (h : History) : List Row := h.rows.mergeSort fun a b => Text.le b.time a.time

/-- The run with an id. -/
def get (h : History) (id : Text) : Except HistoryError Run :=
  match h.rows.find? fun row => row.run.id = id with
  | some row => row.read
  | none => .error (.notFound id)

/-- The newest run whose document has a content identifier. -/
def byContent (h : History) (cid : Text) : Except HistoryError Run :=
  match h.newestFirst.find? fun row => row.run.cid = cid with
  | some row => row.read
  | none => .error (.notFound cid)

/-- The runs of a contract newest first, of all contracts if it is empty; at most `limit` of them
if that is positive.  One time that cannot be read spoils the list. -/
def list (h : History) (contract : Text) (limit : Int) : Except HistoryError (List Run) :=
  let rows := h.newestFirst.filter fun row => contract.isEmpty || row.run.contract = contract
  let rows := if 0 < limit then rows.take limit.toNat else rows
  rows.mapM Row.read

end History

/-! ### Archives -/

/-- A history behind a connection that can be closed. -/
structure Archive where
  history : History := {}
  closed : Bool := false

/-- What is asked of an archive. -/
inductive Request where
  | record (r : Run)
  | get (id : Text)
  | byContent (cid : Text)
  | list (contract : Text) (limit : Int)

/-- Why a request fails. -/
inductive ArchiveError where
  | closed (request : Request) (id : Text)
  | canceled (request : Request) (id : Text)
  | history (e : HistoryError)

/-- What an archive was doing when its connection failed. -/
def Request.doing (id : Text) : Request → Text
  | record _ => "record run " ++ id ++ ": "
  | get _ => "scan run: "
  | byContent _ => "scan run: "
  | list _ _ => "list runs: "

/-- Wording of the errors. -/
def ArchiveError.message : ArchiveError → Text
  | closed q id => q.doing id ++ "sql: database is closed"
  | canceled q id => q.doing id ++ "context canceled"
  | history e => e.message

/-- Answer a request: the runs that it asks for.  A closed connection is noticed before a request
that is called off. -/
def Archive.answer (a : Archive) (freshId : Text) (now : ZonedTime) (canceled : Bool)
    (q : Request) : Except ArchiveError (List Run × Archive) :=
  let id := match q with
    | .record r => if r.id.isEmpty then freshId else r.id
    | _ => []
  if a.closed then .error (.closed q id)
  else if canceled then .error (.canceled q id)
  else
    let found : Except HistoryError (List Run × History) := match q with
      | .record r => (a.history.record freshId now r).map fun (r, h) => ([r], h)
      | .get id => (a.history.get id).map fun r => ([r], a.history)
      | .byContent cid => (a.history.byContent cid).map fun r => ([r], a.history)
      | .list contract limit => (a.history.list contract limit).map fun rs => (rs, a.history)
    match found with
    | .ok (rs, h) => .ok (rs, { a with history := h })
    | .error e => .error (.history e)

end ContractNet
