import ClusterCatalog.Authority.Http
import ClusterCatalog.CommandLine
import ClusterCatalog.Service.Host
import ClusterCatalog.Web.Route
/-!
The program: reads the command line and the settings, builds the service and answers requests, one
a line on standard input, until the input ends.
-/
open ClusterCatalog

namespace ClusterCatalog.Program

def requestOf? (line : String) : Option Web.Request :=
  let chars := line.trimAscii.toString.toList
  let method := chars.takeWhile (· != ' ')
  let rest := (chars.dropWhile (· != ' ')).drop 1
  let body := (rest.dropWhile (· != ' ')).drop 1
  Web.Request.make? (String.ofList method) (String.ofList (rest.takeWhile (· != ' '))) (some "application/json")
    (String.ofList body)

def answerText (a : Web.Answer) : String :=
  match a.body? with
  | some body => a.status.repr ++ " " ++ body.render
  | none => a.status.repr

def faultOf : IO.Error → IoFault
  | .inappropriateType _ 21 _ => .isADirectory
  | .inappropriateType .. => .notADirectory
  | .invalidArgument _ 36 _ => .nameTooLong
  | _ => .notFound

def readFile (path : String) : IO (Except IoFault String) :=
  tryCatch (.ok <$> IO.FS.readFile path) fun e => return .error (faultOf e)

/-- Answers requests. Between two of them the service sees the time that has passed. -/
partial def serve (s : Service HttpAuthority) (since : Nat) (input output : IO.FS.Stream) :
    IO (Service HttpAuthority) := do
  let line ← input.getLine
  let now ← IO.monoMsNow
  let s := s.elapse (now - since)
  if line.isEmpty then return s
  let (answer, s) := match requestOf? line with
    | some request => Web.respond request s
    | none => (⟨400, none⟩, s)
  output.putStrLn (answerText answer)
  output.flush
  serve s.settle now input output

def printAll (lines : List String) : IO Unit := do
  for line in lines do IO.eprintln line

def runWith (settings : Settings) : IO UInt32 := do
  printAll (CommandLine.startLines settings)
  let began ← IO.monoMsNow
  let clock := UInt64.ofNat began
  let host : Host HttpAuthority :=
    { settings, clock, disk := {},
      authority := ⟨HttpAuthority.baseUrlOf settings.authorityAddress, fun _ => none,
        settings.storeDirectory ++ "/incoming-" ++ Decimal.render clock⟩ }
  match host.build with
  | (.error e, _) =>
    IO.eprintln ("Error: " ++ e.message)
    return 1
  | (.ok _, host) =>
    let some service := host.service? | return 1
    printAll (CommandLine.servingLines settings)
    let service ← serve service.start began (← IO.getStdin) (← IO.getStdout)
    let _ := service.stop
    return 0

end ClusterCatalog.Program

open ClusterCatalog.Program in
def main (args : List String) : IO UInt32 := do
  match CommandLine.parse {} args with
  | .error fault =>
    printAll (fault.lines (← IO.appPath).toString)
    return 1
  | .ok options =>
    let config ← match options.config? with
      | some path => readFile path
      | none => pure (.error .notFound)
    match options.settings fun _ => config with
    | .error message =>
      IO.eprintln ("Error: " ++ message)
      return 1
    | .ok settings => runWith settings
