import Scaffold.Store.Pragma
import Scaffold.Text.Parts
import Scaffold.Text.Percent

/-!
# Database addresses

A database is named by a path, perhaps with parameters after a question mark
that is not the first character.  The parameters are a form: pairs of a name and
a value, separated by ampersands.

A name that starts with `file:` is a full address.  It may have an empty host or
the local one.  Its path ends at the first question mark or number sign, and its
options end at the number sign.  The options are the same parameters, read as
parts of an address.

* `mode` says whether the database may be written and created, or is in memory.
* `cache` says whether connections to a database in memory share it.
* `vfs` names the driver, and one driver keeps databases in memory.
* `immutable` keeps a connection from writing to a file.

Three parameters are settled only after the database has been opened: pragmas,
the format of times, and the kind of lock.  So an address is refused in one of
two ways.  A malformed one is no address.  One that asks for something unknown
in these three is not *sound*: its database is opened, and given up again.
-/

namespace Scaffold

/-- What a connection may do to its database. -/
inductive Access where
  /-- Read it. -/
  | readOnly
  /-- Read and write it when it is there. -/
  | existing
  /-- Read and write it, and create it when it is not there. -/
  | create
  /-- Keep it in memory. -/
  | memory
  deriving DecidableEq, Repr

namespace Access

/-- The access with a name. -/
def ofName? : String → Option Access
  | "ro" => some .readOnly
  | "rw" => some .existing
  | "rwc" => some .create
  | "memory" => some .memory
  | _ => none

/-- How much an access asks for. -/
def demand : Access → Nat
  | .memory => 0
  | .readOnly => 1
  | .existing => 2
  | .create => 3

/-- How much an access may be changed to ask for. -/
def ceiling : Access → Nat
  | .memory => 3
  | access => access.demand

end Access

/-- What keeps the databases of an address. -/
inductive Driver where
  | files
  | memory
  deriving DecidableEq, Repr

/-- The driver with a name.  The drivers for files differ in how they lock them. -/
def Driver.ofName? (name : String) : Option Driver :=
  if ["unix", "unix-none", "unix-dotfile", "unix-excl"].contains name then some .files
  else if name = "memdb" then some .memory
  else none

/-- Where a database is and what may be done to it. -/
structure Address where
  /-- The path of the database. -/
  path : String
  /-- What a connection may do. -/
  access : Access := .create
  /-- What keeps the database. -/
  driver : Driver := .files
  /-- Whether connections share a database in memory. -/
  shared : Bool := false
  /-- Whether a connection is kept from writing although the address allows it. -/
  frozen : Bool := false
  /-- Whether the parameters that are settled after opening are known. -/
  sound : Bool := true
  deriving DecidableEq, Repr

/-- Parameters with their values, in order. -/
abbrev Parameters := List (String × String)

namespace Parameters

/-- The values of a parameter, in order. -/
def values (ps : Parameters) (name : String) : List String :=
  ps.filterMap fun (n, v) => if n = name then some v else none

/-- The first value of a parameter, empty when there is none. -/
def first (ps : Parameters) (name : String) : String := (ps.values name).headD ""

/-- The parameters of a form.  A semicolon is refused, and an empty part is passed over. -/
def ofForm? (cs : List Char) : Option Parameters :=
  if ';' ∈ cs then none
  else ((Text.splitOn '&' cs).filter (· ≠ [])).mapM fun part => do
    let (name, value) := Text.cutParameter part
    let name ← Text.readForm? name
    let value ← Text.readForm? value
    some (name, value)

/-- The options of an address.  An option without a name is passed over. -/
def ofOptions (cs : List Char) : Parameters :=
  ((Text.splitOn '&' cs).map fun part =>
    let (name, value) := Text.cutParameter part
    (Text.readAddress name, Text.readAddress value)).filter (·.1 ≠ "")

/-- The driver that parameters name, empty when they name none.  Two names are refused. -/
def driverName? (ps : Parameters) : Option String :=
  (ps.values "vfs").foldlM (fun name value =>
    if name ≠ "" ∧ name ≠ value then none else some value) ""

/-- The pragmas that parameters state, if all of them are accepted. -/
def pragmas? (ps : Parameters) : Option (List Pragma) :=
  (ps.values "_pragma").mapM fun text => do
    let pragma ← Pragma.read? text
    if pragma.isAccepted then some pragma else none

/-- Whether the format of times is known.  None is stated by an empty text. -/
def knowsTimes (ps : Parameters) : Bool :=
  ps.first "_time_format" = "" || ps.first "_time_format" = "sqlite"

/-- Whether the kind of lock is known.  A stated format of times makes any kind acceptable. -/
def knowsLock (ps : Parameters) : Bool :=
  ps.first "_time_format" ≠ "" || ps.first "_txlock" = ""
    || ["deferred", "immediate", "exclusive"].contains ((ps.first "_txlock").map Char.toLower)

end Parameters

namespace Address

/-- Whether the database is kept in memory. -/
def inMemory (a : Address) : Bool :=
  a.path = "" || a.path = ":memory:" || a.access = .memory || a.driver = .memory

/-- The text up to the first null character. -/
def upToNull (cs : List Char) : List Char := cs.takeWhile (· ≠ '\x00')

/-- The part of a full address after its host.  Only an empty host and the local one will do. -/
def afterHost? : List Char → Option (List Char)
  | '/' :: '/' :: cs =>
    let host := cs.takeWhile (· ≠ '/')
    if host = [] ∨ host = "localhost".toList then some (cs.dropWhile (· ≠ '/')) else none
  | cs => some cs

/-- An address with the access changed.  An address cannot be made to ask for more. -/
def withAccess? (a : Address) (name : String) : Option Address := do
  let access ← Access.ofName? name
  if access.demand ≤ a.access.ceiling then some { a with access } else none

/-- An address with an option of a full address. -/
def withOption? (a : Address) : String × String → Option Address
  | ("vfs", value) => do
    let driver ← Driver.ofName? value
    some { a with driver }
  | ("cache", value) => match value with
    | "shared" => some { a with shared := true }
    | "private" => some { a with shared := false }
    | _ => none
  | ("mode", value) => a.withAccess? value
  | _ => some a

/-- The full address after `file:`, with the driver to use when no option names one. -/
def ofFull? (driver : Driver) (cs : List Char) : Option Address := do
  let cs ← afterHost? cs
  let cs := cs.takeWhile (· ≠ '#')
  let path := Text.readAddress (cs.takeWhile (· ≠ '?'))
  let options := Parameters.ofOptions ((cs.dropWhile (· ≠ '?')).drop 1)
  options.foldlM withOption?
    { path, driver, frozen := Pragma.isOn (options.first "immutable") }

/-- How a full address starts. -/
def fullMark : List Char := "file:".toList

/-- The parameters of a name, which follow a question mark that is not its first character. -/
def parameterText : List Char → List Char
  | '?' :: _ => []
  | cs => (cs.dropWhile (· ≠ '?')).drop 1

/-- The path of a name that is no full address. -/
def pathText : List Char → List Char
  | '?' :: cs => '?' :: cs
  | cs => cs.takeWhile (· ≠ '?')

/-- The address that a name denotes. -/
def ofName? (name : String) : Option Address := do
  let cs := name.toList
  let parameters ← Parameters.ofForm? (parameterText cs)
  let driverName ← parameters.driverName?
  let driver ← if driverName = "" then some .files else Driver.ofName? driverName
  let address ←
    if fullMark.isPrefixOf cs then ofFull? driver (upToNull (cs.drop fullMark.length))
    else some { path := String.ofList (upToNull (pathText cs)), driver }
  let pragmas := parameters.pragmas?
  let frozen := (address.frozen && !address.inMemory)
    || (pragmas.getD []).any Pragma.forbidsWriting
  let sound := pragmas.isSome && parameters.knowsTimes && parameters.knowsLock
  some { address with frozen, sound }

/-- Whether a connection may write. -/
def writable (a : Address) : Bool := a.access ≠ .readOnly && !a.frozen

/-- The name under which connections share a database in memory, if they do. -/
def sharedName? (a : Address) : Option String :=
  if a.driver = .memory ∧ a.path ≠ ":memory:" ∧ a.access ≠ .memory then
    match a.path.toList with
    | '/' :: _ :: _ | '\\' :: _ :: _ => some ("memdb:" ++ a.path)
    | _ => none
  else if a.shared ∧ a.path ≠ "" then some a.path
  else none

end Address

end Scaffold
