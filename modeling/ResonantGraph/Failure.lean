import ResonantGraph.Element

/-!
# Failures

Everything that can go wrong is named by its cause. A failure belongs to one of four kinds: an edge
refers to a node that is not there; data cannot be understood; a file or a store cannot be used; a
record cannot be handled. Benign cases, such as a second node of one name, are no failures, and the
operations report them as `false` or as an absent result.

`Failure.message` is the one place where a failure gets its wording.
-/

namespace ResonantGraph

/-- Why a stretch of bytes cannot be read as a value. -/
inductive CodecFault
  /-- A number of variable length has no last byte within its ten, or does not fit a word. -/
  | endlessNumber
  /-- The bytes end before the value does. -/
  | shortInput
  /-- The bytes of a text are no UTF-8. -/
  | invalidText
deriving DecidableEq, Repr

/-- The wording of a fault in encoded bytes. -/
def CodecFault.message : CodecFault → String
  | endlessNumber => "Found a varint that didn't terminate. Is the usize too big for this platform?"
  | shortInput => "Hit the end of buffer, expected more data"
  | invalidText => "Tried to parse invalid utf-8"

/-- Why a settings document is refused. -/
inductive SettingsFault
  /-- The text does not follow the grammar of settings documents. -/
  | malformed
  /-- A key that no setting has. -/
  | unknownKey (key : String)
  /-- A key that occurs twice. -/
  | repeatedKey (key : String)
  /-- A value of the wrong type or out of range. -/
  | unsuitableValue (key : String)
deriving DecidableEq

/-- The wording of a fault in a settings document. -/
def SettingsFault.message : SettingsFault → String
  | malformed => "malformed document"
  | unknownKey key => "unknown key " ++ key
  | repeatedKey key => "repeated key " ++ key
  | unsuitableValue key => "unsuitable value for " ++ key

/-- Why data cannot be understood. -/
inductive DataFault
  /-- There is no room for a snapshot header. -/
  | headerTooShort
  /-- A snapshot is shorter than its header. -/
  | snapshotTooShort (minimum : Nat)
  /-- A snapshot is longer than allowed. -/
  | snapshotTooLong (size limit : Nat)
  /-- A snapshot does not begin with the right four bytes. -/
  | foreignMagic
  /-- A snapshot is of another version of the format. -/
  | foreignVersion (found expected : UInt8)
  /-- The graph in a snapshot cannot be read. -/
  | payload (cause : CodecFault)
  /-- A stored node or edge cannot be read. -/
  | blob (cause : CodecFault)
  /-- A settings document is refused. -/
  | settings (cause : SettingsFault)
  /-- A settings document is longer than allowed. -/
  | settingsTooLong (size limit : Nat)
  /-- A file is longer than allowed. -/
  | fileTooLong (size limit : Nat)
deriving DecidableEq

/-- The wording of a fault in data. -/
def DataFault.message : DataFault → String
  | headerTooShort => "Header too short"
  | snapshotTooShort minimum => "Data too short: minimum " ++ toString minimum ++ " bytes required"
  | snapshotTooLong size limit => exceeds "Data" size limit
  | foreignMagic => "Invalid magic bytes"
  | foreignVersion found expected =>
    "Unsupported version: " ++ toString found.toNat ++
      " (expected " ++ toString expected.toNat ++ ")"
  | payload cause => "Failed to deserialize substrate data: " ++ cause.message
  | blob cause => cause.message
  | settings cause => "Invalid config: " ++ cause.message
  | settingsTooLong size limit => exceeds "Config" size limit
  | fileTooLong size limit => exceeds "File" size limit
where
  /-- Says that something is longer than allowed. -/
  exceeds (what : String) (size limit : Nat) : String :=
    what ++ " size " ++ toString size ++ " bytes exceeds maximum allowed " ++ toString limit ++
      " bytes"

/-- Why the file system refuses an operation. -/
inductive FileFault
  /-- Nothing has that name. -/
  | noEntry
  /-- Something on the way is no directory. -/
  | notDirectory
  /-- A directory stands where a file is needed. -/
  | isDirectory
  /-- The content of a file or stream is no UTF-8. -/
  | invalidText
  /-- A name is longer than a directory can hold. -/
  | nameTooLong
  /-- A path has a null character in it. -/
  | nullInPath
deriving DecidableEq

/-- The wording of a fault of the file system. -/
def FileFault.message : FileFault → String
  | noEntry => "No such file or directory (os error 2)"
  | notDirectory => "Not a directory (os error 20)"
  | isDirectory => "Is a directory (os error 21)"
  | invalidText => "stream did not contain valid UTF-8"
  | nameTooLong => "File name too long (os error 36)"
  | nullInPath => "file name contained an unexpected NUL byte"

/-- Why a file or a store cannot be used. -/
inductive IoFault
  /-- A store refuses a call for an element. -/
  | refused (call id : String)
  /-- A file cannot be opened as a store. -/
  | unusableStore
  /-- An input path leads nowhere. -/
  | inputPath (path : String) (cause : FileFault)
  /-- An input path leads to something other than a file. -/
  | notRegular (path : String)
  /-- The directory of an output path leads nowhere. -/
  | outputDirectory (path : String) (cause : FileFault)
  /-- An output path names no file. -/
  | outputUnnamed
  /-- An import has no store to go to. -/
  | importTarget
  /-- A file cannot be read. -/
  | readFile (cause : FileFault)
  /-- A file cannot be written. -/
  | writeFile (cause : FileFault)
  /-- Standard input cannot be read. -/
  | readInput (cause : FileFault)
  /-- A settings document cannot be read. -/
  | readSettings (cause : FileFault)
  /-- The elements of a store cannot be listed. -/
  | listStore (quotedPath : String)
deriving DecidableEq

/-- The wording of a fault of a file or a store. -/
def IoFault.message : IoFault → String
  | refused call id => "fault " ++ call ++ ":" ++ id
  | unusableStore => "The file is not a store"
  | inputPath path cause => "Invalid file path '" ++ path ++ "': " ++ cause.message
  | notRegular path => "Path '" ++ path ++ "' is not a regular file"
  | outputDirectory path cause => "Invalid output directory '" ++ path ++ "': " ++ cause.message
  | outputUnnamed => "Output path has no filename"
  | importTarget => "Import needs a --store to write into"
  | readFile cause => "Read file: " ++ cause.message
  | writeFile cause => "Write file: " ++ cause.message
  | readInput cause => "Read stdin: " ++ cause.message
  | readSettings cause => "Read config: " ++ cause.message
  | listStore quotedPath => "Could not list stored ids in " ++ quotedPath

/-- Why a record cannot be handled. -/
inductive HandlerFault
  /-- The unit has no graph to work on. -/
  | detached (unit : String)
  /-- The node that was just mapped is gone. -/
  | vanished (node : NodeId)
  /-- A cause in the handler's own words. -/
  | other (text : String)
deriving DecidableEq

/-- The wording of a fault in handling a record. -/
def HandlerFault.message : HandlerFault → String
  | detached unit => "unit '" ++ unit ++ "' has no substrate attached"
  | vanished node => "content node " ++ node ++ " vanished while mapping"
  | other text => text

/-- Everything that can go wrong. -/
inductive Failure
  /-- An edge refers to a node that is not in the graph. -/
  | missingMember (edge : EdgeId) (node : NodeId)
  /-- Data cannot be understood. -/
  | data (cause : DataFault)
  /-- A file or a store cannot be used. -/
  | io (cause : IoFault)
  /-- A record cannot be handled. -/
  | handler (cause : HandlerFault)
deriving DecidableEq

/-- The wording of a failure. -/
def Failure.message : Failure → String
  | missingMember edge node =>
    "Referential integrity violation: edge " ++ edge ++ " references missing node " ++ node
  | data cause => "Serialization error: " ++ cause.message
  | io cause => "I/O error: " ++ cause.message
  | handler cause => "Handler failed: " ++ cause.message

end ResonantGraph
