import DriveHealth.CommandLine.Options
import DriveHealth.Database.Listing
import DriveHealth.Identify.Report
import DriveHealth.Nvme.Report
import DriveHealth.Release
/-!
What a command line prints, given the files that it may read. A report is printed as a whole or not at
all: everything that can fail comes before it.
-/

namespace DriveHealth.CommandLine

inductive Status where
  | success
  | failure
  /-- The database could not be read, or its listing shows errors. -/
  | badDatabase
  deriving DecidableEq, Repr

def Status.code : Status → UInt32
  | success => 0
  | failure => 1
  | badDatabase => 2

structure Output where
  status : Status
  report : Text := []
  log : Text := []
  deriving DecidableEq, Repr

def Output.behind (log : Text) (o : Output) : Output := { o with log := log ++ o.log }

def program : Text := "attrprint"

def usage : Text :=
  Release.banner program ++ "\n" ++
    "Print SMART attributes from SMART READ DATA page files\n" ++
    "\n" ++
    "Usage: " ++ program ++
    " [-B [+]FILE] [-i IDENTIFY_FILE | -m MODEL] [-v ID,FORMAT[,NAME]]...\n" ++
    "          [-f brief|hex] [-e le|be] [-P show|showall] [-r LEVEL] SMART_DATA_FILE\n" ++
    "       " ++ program ++ " -d nvme [-a] [-r LEVEL] NVME_LOG_FILE\n" ++
    "\n" ++
    "    -B [+]FILE Read drive database from FILE ('+': add to builtin database)\n" ++
    "    -i FILE    Read drive model from IDENTIFY DEVICE page FILE\n" ++
    "    -m MODEL   Specify drive model\n" ++
    "    -v ID,FORMAT[:BYTEORDER][,NAME]\n" ++
    "               Set display name and raw format of attribute ID\n" ++
    "    -f FORMAT  Attribute table format: brief, hex\n" ++
    "    -e ORDER   Byte order of SMART data file: le, be (default: host)\n" ++
    "    -P TYPE    Show drive database presets: show, showall\n" ++
    "    -d nvme    Print NVMe SMART/Health Information log page\n" ++
    "    -a         Print all NVMe log fields\n" ++
    "    -r LEVEL   Specify debug level\n" ++
    "    -h         Print this help\n" ++
    "    -V         Print version information\n"

def wrongUse : Output := { status := .failure, report := usage }

def logLines (verbosity : Verbosity) (ms : List Message) : Text :=
  (Message.shown verbosity ms).flatMap Message.line

def dataErrorLine (path : Text) (e : FileSystem.DataError) : Text := path ++ ": " ++ e.text ++ "\n"

def nvmeOutput (o : Options) (fs : FileSystem) (path : Text) : Output :=
  match fs.data path NvmeLog.size with
  | .error e => { status := .failure, log := dataErrorLine path e }
  | .ok bytes =>
    match NvmeLog.read bytes with
    | .error e => { status := .failure, log := logLines o.verbosity [e.message] }
    | .ok log => { status := .success, report := log.report o.showAll }

inductive DefinitionError where
  | invalid (definition : Text)
  | unknownFormat (definition : Text)
  deriving DecidableEq, Repr

def DefinitionError.line : DefinitionError → Text
  | invalid t => "-v " ++ t ++ ": invalid argument, use '-v help' for a list\n"
  | unknownFormat t => "-v " ++ t ++ ": unknown raw format\n"

/-- The presets of a user; their rules have to be known. -/
def userPresets (presets : Presets) : List Text → Except DefinitionError Presets
  | [] => .ok presets
  | t :: r =>
    match Definition.parse? t with
    | none => .error (.invalid t)
    | some d =>
      if d.preset.rule.isKnown then userPresets (presets.define d) r else .error (.unknownFormat t)

structure Drive where
  page : Option IdentifyPage := none
  model : Text := []
  deriving DecidableEq, Repr

/-- Reads the drive; an error is told in a line. The model keeps its blanks. -/
def drive (o : Options) (fs : FileSystem) : Except Text Drive :=
  match o.identify with
  | some path =>
    match fs.data path IdentifyPage.size with
    | .error e => .error (dataErrorLine path e)
    | .ok bytes =>
      match IdentifyPage.read bytes with
      | .error e => .error (logLines o.verbosity [e.message])
      | .ok page => .ok { page := some page, model := IdentifyPage.fieldText page.model }
  | none => .ok { model := o.model.getD [] }

def Options.namesDrive (o : Options) : Bool := o.identify.isSome || o.model.isSome

def smartReport (o : Options) (user : Presets) (d : Drive) (found : Database.Lookup)
    (page : SmartPage) : Text :=
  let info : DriveInfo := ⟨d.page, d.model, found.entry, found.isMatch⟩
  onlyIf o.namesDrive (info.text ++ "\n") ++
    page.table (found.entry.presets.overriddenBy user) o.style

def smartOutput (o : Options) (fs : FileSystem) (user : Presets) (db : Database) (d : Drive)
    (path : Text) : Output :=
  match fs.data path SmartPage.size with
  | .error e => { status := .failure, log := dataErrorLine path e }
  | .ok bytes =>
    match SmartPage.read o.order bytes with
    | .error e => { status := .failure, log := logLines o.verbosity [e.message] }
    | .ok reading =>
      let found := db.lookup d.model
      { status := .success
        report := smartReport o user d found reading.page
        log := logLines o.verbosity (reading.findings.map (·.message) ++ [found.message]) }

/-- What is printed about a drive: the entries for it, or its attributes. -/
def driveOutput (o : Options) (fs : FileSystem) (user : Presets) (db : Database) (d : Drive)
    (operands : List Text) : Output :=
  if o.listed = some .matching then
    if o.namesDrive then { status := .success, report := db.listingFor d.model } else wrongUse
  else
    match operands with
    | [path] => smartOutput o fs user db d path
    | _ => wrongUse

def allOutput (db : Database) : Output :=
  { status := if 0 < db.errors then .badDatabase else .success, report := db.listing }

def databaseOutput (o : Options) (fs : FileSystem) (user : Presets) (db : Database)
    (operands : List Text) : Output :=
  if o.listed = some .all then allOutput db
  else
    match drive o fs with
    | .error line => { status := .failure, log := line }
    | .ok d => driveOutput o fs user db d operands

def attributeOutput (o : Options) (fs : FileSystem) (operands : List Text) : Output :=
  match userPresets .empty o.definitions with
  | .error e => { status := .failure, log := e.line }
  | .ok user =>
    let reading := Database.addSource {} fs (.ofArgument o.database)
    Output.behind (logLines o.verbosity reading.messages) <|
      match reading.fault with
      | some f => { status := .failure, log := "Exception: " ++ f.message ++ "\n" }
      | none =>
        if reading.isGood then databaseOutput o fs user reading.database operands
        else { status := .badDatabase }

def Request.output (fs : FileSystem) : Request → Output
  | .help => { status := .success, report := usage }
  | .wrongUse => CommandLine.wrongUse
  | .release => { status := .success, report := Release.details program }
  | .definitionHelp =>
    { status := .success
      report := "Valid arguments to '-v':\n" ++ Definition.help ++ "\n" }
  | .run o operands =>
    if o.isNvme then
      match operands with
      | [path] => nvmeOutput o fs path
      | _ => CommandLine.wrongUse
    else attributeOutput o fs operands

def run (arguments : List Text) (fs : FileSystem) : Output :=
  (Request.ofArguments arguments).output fs

def Request.paths : Request → List Text
  | .run o operands =>
    let database : Text :=
      match Database.Source.ofArgument o.database with
      | .installed => Database.installedPath
      | .file path | .added path => path
    database :: (o.identify.toList ++ operands)
  | _ => []

end DriveHealth.CommandLine
