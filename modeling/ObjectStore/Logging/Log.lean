import ObjectStore.Logging.Filter
import ObjectStore.Settings

/-! # The log

* **`Log`** — which notices are shown, and in which form.
* **`Log.configure`** — the log that the settings ask for, unless its filter is overridden.
* **`Log.install`** — only the first log that is installed counts.
* **`Notice.line`** — a notice as a line of text. -/

namespace ObjectStore

/-- The form of the lines of a log. -/
inductive LogForm where
  | text | json
  deriving DecidableEq, Repr

/-- Which notices are shown, and in which form. -/
structure Log where
  filter : Filter
  form : LogForm
  deriving DecidableEq, Repr

namespace Log

/-- The log that the settings ask for. An override takes the place of the level, if all of it is well
formed. -/
def configure (settings : LoggingSettings) (override : Option String) : Log where
  filter := (override.bind Filter.parse?).getD (Filter.parseLossy settings.level)
  form := if settings.format == "json" then .json else .text

/-- Install a log unless there is one already; whether it was installed, and the log that counts. -/
def install (current : Option Log) (log : Log) : Bool × Log :=
  match current with
  | none => (true, log)
  | some current => (false, current)

/-- The notices that a log shows. -/
def shown (log : Log) (notices : List Notice) : List Notice := notices.filter log.filter.allows

end Log

/-- A text in quotes, with quotes and backslashes inside it escaped. -/
def quote (text : String) : String :=
  String.ofList ('"' :: text.toList.flatMap (fun c =>
    if c == '"' || c == '\\' then ['\\', c] else [c]) ++ ['"'])

/-- The value of a field in a line. -/
def FieldValue.inLine : FieldValue → String
  | .number n => s!"{n}"
  | .quoted text => quote text
  | .plain text => text

/-- The value of a field by itself. -/
def FieldValue.text : FieldValue → String
  | .number n => s!"{n}"
  | .quoted text => text
  | .plain text => text

/-- A notice as a line of text: its severity, origin and message, then its fields. -/
def Notice.line (n : Notice) : String :=
  let fields := n.fields.map fun (name, value) => " " ++ name ++ "=" ++ value.inLine
  s!"{n.severity.name} {n.origin}: {n.message}" ++ String.join fields

end ObjectStore
