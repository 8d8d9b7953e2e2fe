import Staging.Log.Record

/-!
# Loggers

Loggers form a hierarchy by the dots in their names. A logger stands below the nearest of those met
so far whose name its own begins with. One without a level of its own has that of the nearest one
above it that has, and the root's in the end. What passes goes to the console, which
has a threshold of its own; while no console is set up, what is important enough is shown as its
bare message.
-/

namespace Staging.Log

/-- Where lines go, and in which form. -/
structure Console where
  threshold : Level
  format : Format
  deriving DecidableEq, Repr

/-- The logger of the database library, which has a level of its own from the start. -/
def libraryChannel : String := "sqlalchemy"

/-- The loggers and the console. -/
structure Hierarchy where
  root : Level := Level.warning
  /-- The loggers met so far, the latest first. The root is not among them. -/
  known : List String := [libraryChannel]
  own : List (String × Level) := [(libraryChannel, Level.warning)]
  console : Option Console := none
  deriving DecidableEq, Repr

namespace Hierarchy

/-- The name of the root, which also answers to no name at all. -/
def rootName : String := "root"

/-- The name that a logger shows. -/
def shownName (channel : String) : String :=
  if channel.isEmpty then rootName else channel

/-- Takes note of a logger. -/
def meet (h : Hierarchy) (channel : String) : Hierarchy :=
  if shownName channel == rootName || h.known.contains channel then h
  else { h with known := channel :: h.known }

/-- The names above one that is given in reverse, the nearest first. Each ends before a dot, and the
search for the next one passes over its last character. -/
def above : List Char → List String
  | [] => []
  | '.' :: c :: rest => String.ofList (c :: rest).reverse :: above rest
  | _ :: rest => above rest

/-- Whether a logger takes over one below it. What the root's name begins with takes over none that
was met before. -/
def takesOver (h : Hierarchy) (upper channel : String) : Bool :=
  h.known.contains upper
    && !(rootName.startsWith upper && (h.known.dropWhile (· != upper)).contains channel)

/-- The next logger above, unless it is the root. -/
def parent? (h : Hierarchy) (channel : String) : Option String :=
  (above channel.toList.reverse).find? (h.takesOver · channel)

/-- The level of its own that a logger has; zero counts as none. -/
def ownLevel? (h : Hierarchy) (channel : String) : Option Level :=
  (h.own.lookup channel).filter (· != 0)

/-- The level that a logger has of its own or from one at most so many steps above it. -/
def effectiveWithin (h : Hierarchy) : Nat → String → Level
  | 0, _ => h.root
  | steps + 1, channel =>
    match h.ownLevel? channel, h.parent? channel with
    | some level, _ => level
    | none, some upper => h.effectiveWithin steps upper
    | none, none => h.root

/-- The level in force for a logger. As a name above is shorter, there are steps enough. -/
def effective (h : Hierarchy) (channel : String) : Level :=
  h.effectiveWithin (channel.length + 1) channel

/-- Whether a logger takes records of a level. -/
def isEnabled (h : Hierarchy) (channel : String) (level : Level) : Bool :=
  0 < level && h.effective channel ≤ level

/-- Gives a logger a level of its own. -/
def setLevel (h : Hierarchy) (channel : String) (level : Level) : Hierarchy :=
  if shownName channel == rootName then { h with root := level }
  else { h.meet channel with own := (channel, level) :: h.own.filter (·.1 != channel) }

/-- The logger of the database engine, whose own output is kept down. -/
def engineChannel : String := "sqlalchemy.engine"

/-- Sets up logging at a level: the root and the console take what is at least that important. -/
def setUp (h : Hierarchy) (level : Level) (format : Format) : Hierarchy :=
  { h with root := level, console := some ⟨level, format⟩ }.setLevel engineChannel Level.warning

/-- The line written for a record that its logger took. -/
def emit (h : Hierarchy) (stamp : Stamp) (r : Record) : Option String :=
  match h.console with
  | some console =>
    if console.threshold ≤ r.level then some (r.line console.format stamp) else none
  | none => if Level.warning ≤ r.level then some r.message else none

/-- The line written for a record. -/
def handle (h : Hierarchy) (stamp : Stamp) (r : Record) : Option String :=
  if h.isEnabled r.channel r.level then h.emit stamp r else none

end Hierarchy

end Staging.Log
