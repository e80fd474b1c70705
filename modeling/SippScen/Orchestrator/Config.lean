import Mathlib.Data.Rat.Floor
import SippScen.Support.CLib
import SippScen.Support.Dict

/-!
# Configuration of the orchestrator

The YAML configuration as `sippscen.py` reads it, and the pure functions of
`sippscen_utils.py` that the preparation of a scenario rests on.  A YAML value
is known by what the orchestrator does with it: a field may be absent (or, for
a field that is only tested for truth, false), hold a value of the expected
type, or hold one on which the operation applied to it raises.
-/

namespace SippScen.Orchestrator

open SippScen.Support

/-- A Python string: its code points. -/
abbrev PyStr := List Char

/-- A field of a YAML mapping. -/
inductive Field (α : Type)
  | absent
  | malformed
  | value (a : α)
deriving DecidableEq, Repr

/-- A YAML scalar that is printed and may be calculated with: its `str()` and
its value, if it is a number. -/
structure Scalar where
  text : PyStr
  number : Option ℚ
deriving DecidableEq, Repr

/-- A YAML number. -/
structure Number where
  text : PyStr
  number : ℚ
deriving DecidableEq, Repr

/-- The section `register` of a scenario. -/
structure RegisterConfig where
  registrar : Field PyStr
  registerFile : Field PyStr
  unregisterFile : Field PyStr
  cps : Option Scalar
deriving DecidableEq, Repr

/-- The section `pattern` of a scenario. -/
structure PatternConfig where
  timepoints : Field (List (Field PyStr))
  cps : Field (List Number)
  «repeat» : Bool
deriving DecidableEq, Repr

/-- `scn_data`: the fields of a scenario.  Fields that are only printed hold
their `str()`. -/
structure ScenarioConfig where
  type : Option PyStr
  scenarioFile : Field PyStr
  numberEndpoints : Field ℤ
  cps : Option Scalar
  callDuration : Option PyStr
  totalCalls : Field ℤ
  rtpServer : Field PyStr
  rtpPortOffset : Field ℤ
  sipPort : Option PyStr
  dnStart : Field ℤ
  localIp : Field PyStr
  destination : Field PyStr
  callService : Option PyStr
  receiveTimeout : Field PyStr
  sendTimeout : Field PyStr
  register : Field RegisterConfig
  pattern : Field PatternConfig
deriving DecidableEq, Repr

/-! ## Numbers and times in strings -/

/-- The zeros of the decimal digits of Unicode: the digits of a script are ten
consecutive code points. -/
def decimalZeros : List ℕ :=
  [0x30, 0x660, 0x6f0, 0x7c0, 0x966, 0x9e6, 0xa66, 0xae6, 0xb66, 0xbe6, 0xc66,
    0xce6, 0xd66, 0xde6, 0xe50, 0xed0, 0xf20, 0x1040, 0x1090, 0x17e0, 0x1810,
    0x1946, 0x19d0, 0x1a80, 0x1a90, 0x1b50, 0x1bb0, 0x1c40, 0x1c50, 0xa620,
    0xa8d0, 0xa900, 0xa9d0, 0xa9f0, 0xaa50, 0xabf0, 0xff10, 0x104a0, 0x10d30,
    0x11066, 0x110f0, 0x11136, 0x111d0, 0x112f0, 0x11450, 0x114d0, 0x11650,
    0x116c0, 0x11730, 0x118e0, 0x11950, 0x11c50, 0x11d50, 0x11da0, 0x11f50,
    0x16a60, 0x16ac0, 0x16b50, 0x1d7ce, 0x1d7d8, 0x1d7e2, 0x1d7ec, 0x1d7f6,
    0x1e140, 0x1e2f0, 0x1e4f0, 0x1e950, 0x1fbf0]

/-- The value of a decimal digit. -/
def decimalDigit (c : Char) : Option ℕ :=
  decimalZeros.findSome? fun first =>
    if first ≤ c.toNat ∧ c.toNat < first + 10 then some (c.toNat - first)
    else none

/-- `\d` of the regular expressions. -/
def isDecimal (c : Char) : Bool := (decimalDigit c).isSome

/-- The value of a sequence of decimal digits. -/
def decimalValue (digits : PyStr) : ℕ :=
  digits.foldl (fun n c => 10 * n + (decimalDigit c).getD 0) 0

/-- The value of an optional minus sign and decimal digits. -/
def readInt : PyStr → Option ℤ
  | '-' :: digits =>
      if digits ≠ [] ∧ digits.all isDecimal then some (-decimalValue digits)
      else none
  | digits =>
      if digits ≠ [] ∧ digits.all isDecimal then some (decimalValue digits)
      else none

/-- The digits that `int` converts at most. -/
def maxStrDigits : ℕ := 4300

/-- `int(s)` for an optional minus sign and decimal digits. -/
def pyInt (s : PyStr) : Option ℤ :=
  if (s.filter isDecimal).length ≤ maxStrDigits then readInt s else none

/-- `int(x or 0)` for the decimal digits of a group. -/
def groupValue : Option PyStr → Option ℕ
  | none => some 0
  | some digits =>
      if digits.length ≤ maxStrDigits then some (decimalValue digits) else none

/-- `(?:(\d+)unit)?`, where the text after the unit must not start with
`notBefore`: the digits, if the component is there, and the remaining text. -/
def scanComponent (unit notBefore s : PyStr) : Option PyStr × PyStr :=
  let digits := s.takeWhile isDecimal
  let rest := s.dropWhile isDecimal
  if digits ≠ [] ∧ unit <+: rest ∧
      (notBefore = [] ∨ ¬ notBefore <+: rest.drop unit.length) then
    (some digits, rest.drop unit.length)
  else (none, s)

/-- `translate_time_signature`: milliseconds of a text such as
`3h24m23s346ms`; `none` when it raises. -/
def translateTimeSignature (timeSign : PyStr) : Option ℕ :=
  let digits := timeSign.takeWhile isDecimal
  let rest := timeSign.dropWhile isDecimal
  -- `$` also matches before a newline at the end
  if digits ≠ [] ∧ (rest = [] ∨ rest = ['\n']) then
    (groupValue digits).map (· * 1000)
  else do
    let lower := timeSign.map Char.toLower
    let (h, afterH) := scanComponent ['h'] [] lower
    let (m, afterM) := scanComponent ['m'] ['s'] afterH
    let (s, afterS) := scanComponent ['s'] [] afterM
    let (ms, _) := scanComponent ['m', 's'] [] afterS
    let h ← groupValue h
    let m ← groupValue m
    let s ← groupValue s
    let ms ← groupValue ms
    some (h * 3600000 + m * 60000 + s * 1000 + ms)

example : translateTimeSignature "3h24m23s346ms".toList = some 12263346 := by
  decide

example : translateTimeSignature "10s500ms".toList = some 10500 := by decide

/-- The section `run`, with the duration that is read before the preparation: a
text that cannot be read ends the program there. -/
structure RunConfig where
  duration : PyStr
  receiveTimeout : Field PyStr
  sendTimeout : Field PyStr
  runDuration : ℕ
  translates : translateTimeSignature duration = some runDuration

/-- The index at which the loop over the pairs of characters ends: that of the
first difference, or of the last pair. -/
def firstDifference (i : ℕ) : List (Char × Char) → ℕ
  | [] => i
  | [_] => i
  | (c1, c2) :: rest => if c1 ≠ c2 then i else firstDifference (i + 1) rest

/-- `dn_prefix`: the common prefix of the numbers, and how many digits
follow it. -/
def dnPrefix (dnStart nPorts : ℤ) : PyStr × ℕ :=
  let dnEnd := dnStart + nPorts
  let strStart := toDecimal dnStart
  let strEnd := toDecimal dnEnd
  let i := firstDifference 0 (strStart.zip strEnd)
  (strStart.take i, strEnd.length - i)

/-- `endpoint.split(':')[0]`: the host part of an endpoint. -/
def hostPart (endpoint : PyStr) : PyStr := endpoint.takeWhile (· ≠ ':')

/-! ## Paths -/

/-- `os.path.join(dir, name)`. -/
def pathJoin (dir name : PyStr) : PyStr :=
  if name.head? = some '/' then name
  else if dir = [] ∨ dir.getLast? = some '/' then dir ++ name
  else dir ++ ['/'] ++ name

/-- `os.path.basename(path)`. -/
def basename (path : PyStr) : PyStr :=
  (path.reverse.takeWhile (· ≠ '/')).reverse

/-! ## The command line of SIPp -/

/-- What ends the preparation of a scenario. -/
inductive Failure
  /-- The media server does not answer: the scenario is skipped. -/
  | unresponsive (ms : PyStr)
  | templateNotFound (name : PyStr)
  /-- `KeyError`, with the `repr` of the key. -/
  | keyError (key : PyStr)
  /-- An operation on the value of this field or file raises. -/
  | malformed (what : PyStr)
  | missingDestination
deriving DecidableEq, Repr

/-- `KeyError` for a field of the configuration. -/
def missingKey (name : PyStr) : Failure := .keyError (['\''] ++ name ++ ['\''])

/-- The arguments of `compose_cli`. -/
structure CliArgs where
  type : PyStr
  logpath : PyStr
  xmlFile : PyStr
  csvFile : List PyStr
  localIp : PyStr
  sipPort : PyStr
  callService : Option PyStr
  receiveTm : Option ℕ
  sendTm : Option ℕ
  cps : Scalar
  destination : Field PyStr
  totalCalls : Option ℤ
  controlPort : Option ℕ
  background : Bool
deriving DecidableEq, Repr

/-- A composed command, with the arguments that it was composed from.  A word
is `none` where the value put on the command line is not a string. -/
structure Cli where
  args : CliArgs
  words : List (Option PyStr)
deriving DecidableEq, Repr

/-- `add_optional_arg`, for the `str()` of a value that counts as true. -/
def addOptionalArg (flag : PyStr) : Option PyStr → List PyStr
  | some value => [flag, value]
  | none => []

/-- The `str()` of an integer that counts as true. -/
def truthyInt (z : ℤ) : Option PyStr := if z = 0 then none else some (toDecimal z)

/-- The words of the command before those that depend on the type. -/
def CliArgs.commonWords (a : CliArgs) : List PyStr :=
  ["sipp".toList, "-t".toList, "t1".toList] ++
    (if a.background then ["-bg".toList] else []) ++
    addOptionalArg "-recv_timeout".toList (a.receiveTm.bind fun n => truthyInt n) ++
    addOptionalArg "-send_timeout".toList (a.sendTm.bind fun n => truthyInt n) ++
    ["-trace_err".toList, "-error_file".toList,
      a.logpath ++ "_errors.out".toList,
      "-trace_msg".toList, "-rfc3339".toList, "-message_file".toList,
      a.logpath ++ "_traces.out".toList,
      "-sf".toList, a.xmlFile] ++
    a.csvFile.flatMap (fun infile => ["-inf".toList, infile]) ++
    ["-p".toList, a.sipPort] ++
    addOptionalArg "-s".toList a.callService ++
    addOptionalArg "-cp".toList (a.controlPort.bind fun n => truthyInt n) ++
    ["-i".toList, a.localIp]

/-- `compose_cli`.  A type that is neither `client` nor `server` gives an empty
command. -/
def composeCli (a : CliArgs) : Except Failure Cli :=
  if a.type = "client".toList then
    let rate := addOptionalArg "-m".toList (a.totalCalls.bind truthyInt) ++
      ["-r".toList, a.cps.text]
    let stats := ["-trace_stat".toList, "-fd".toList, "5".toList,
      "-stf".toList, a.logpath ++ "_stats.csv".toList]
    let client (destination : Option PyStr) : Cli :=
      ⟨a, (a.commonWords ++ rate).map some ++ [destination] ++
        stats.map some⟩
    match a.destination with
    | .absent => .error .missingDestination
    | .value [] => .error .missingDestination
    | .malformed => .ok (client none)
    | .value destination => .ok (client (some destination))
  else if a.type = "server".toList then
    .ok ⟨a, a.commonWords.map some⟩
  else
    .ok ⟨a, []⟩

/-- `" ".join(cli)` raises unless every word is a string. -/
def Cli.joins (cli : Cli) : Bool := cli.words.all Option.isSome

end SippScen.Orchestrator
