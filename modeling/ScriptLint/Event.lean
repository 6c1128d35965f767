import ScriptLint.Check.Blocks

/-!
The log of an analysis: what happened, in order.

* `Event`: a thing that happened.
* `Entry`: a line of the log, a level with named values.
* `Event.entry`: how an event is logged.
* `BlockStep.event?`: the opening and the proper closing of a block are logged.
-/

namespace ScriptLint

/-- How much detail an entry is. -/
inductive Level where
  | trace | debug | info
deriving DecidableEq, Repr

/-- The name of a level. -/
def Level.display : Level → String
  | trace => "TRACE"
  | debug => "DEBUG"
  | info => "INFO"

/-- A value in the log. -/
inductive LogValue where
  | text (value : String)
  | count (value : Nat)
  | number (value : Float)
  | flag (value : Bool)

/-- A line of the log. -/
structure Entry where
  level : Level
  /-- The name of the span of time that the entry begins, if it begins one. -/
  span? : Option String
  fields : List (String × LogValue)

/-- A thing that happened. -/
inductive Event where
  /-- The analysis of a source of this many bytes began. -/
  | began (bytes : Nat)
  | blockOpened (frame : Frame) (depth : Nat)
  | blockClosed (frame : Frame) (place : Position)
  /-- At the end of the script a check had this many findings. -/
  | endFindings (check : String) (count : Nat)
  | analyzed (lines errors warnings : Nat) (complexity : Float) (valid : Bool)
  /-- Files are going to be checked. -/
  | checking (format : String) (denyWarnings : Bool) (files : Nat)
  | checked (file : String) (valid : Bool) (errors warnings : Nat)

/-- The event of a step, if it is logged. -/
def BlockStep.event? : BlockStep → Option Event
  | opened frame depth => some (.blockOpened frame depth)
  | closed frame place => some (.blockClosed frame place)
  | _ => none

namespace Event

/-- An entry that is not the begin of a span, with its text. -/
def told (level : Level) (message : String) (fields : List (String × LogValue)) : Entry :=
  ⟨level, none, ("message", .text message) :: fields⟩

/-- How an event is logged. -/
def entry : Event → Entry
  | began bytes => ⟨.debug, some "analyze", [("bytes", .count bytes)]⟩
  | blockOpened frame depth =>
    told .trace "opened control frame"
      [("kind", .text frame.kind.display), ("opened_at", .text frame.openedAt.display),
        ("depth", .count depth)]
  | blockClosed frame place =>
    told .trace "closed control frame"
      [("kind", .text frame.kind.display), ("opened_at", .text frame.openedAt.display),
        ("closed_at", .text place.display)]
  | endFindings check count =>
    told .debug "end-of-script issues" [("check", .text check), ("count", .count count)]
  | analyzed lines errors warnings complexity valid =>
    told .debug "script analyzed"
      [("lines", .count lines), ("errors", .count errors), ("warnings", .count warnings),
        ("complexity", .number complexity), ("valid", .flag valid)]
  | checking format denyWarnings files =>
    told .debug "running check"
      [("format", .text format), ("deny_warnings", .flag denyWarnings),
        ("files", .count files)]
  | checked file valid errors warnings =>
    told .info "analyzed script"
      [("file", .text file), ("valid", .flag valid), ("errors", .count errors),
        ("warnings", .count warnings)]

end Event

end ScriptLint
