import SceneForge.Build.Cache
import SceneForge.Compile.Buffer
import SceneForge.Text.Utf8

/-!
# Problems of compiling

Everything that can keep a scene from being compiled, its kind for build logs, and
its wording.
-/

namespace SceneForge

/-- Why a scene is not compiled. -/
inductive CompileError where
  | inputRead (path : Path)
  /-- The source is no text. -/
  | notText (error : Text.Utf8Error)
  | document (error : DocumentError)
  | buffer (error : BufferError)
  | container (error : FormatError)
  | outputWrite (path : Path)
  | cache (error : CacheError)

/-- The kinds of problems that build logs tell apart. -/
inductive ErrorKind where
  | schema
  | fieldValidation
  | unknownName
  | unresolvedReference
  | unknownItem
  | outputWrite
  | cacheAccess
  | inputRead
  | internal
  deriving DecidableEq

/-- The kind of a field's problem. -/
def FieldError.kind : FieldError → ErrorKind
  | missing _ => .schema
  | invalid .. => .fieldValidation
  | unknownName .. => .unknownName
  | unresolved .. => .unresolvedReference

/-- The kind of a problem of writing a document. -/
def BufferError.kind : BufferError → ErrorKind
  | .node _ error | .item _ _ error => error.kind
  | .unknownItem .. => .unknownItem
  | .sizeMismatch .. | .format _ => .internal

/-- The kind of a problem. -/
def CompileError.kind : CompileError → ErrorKind
  | .inputRead _ => .inputRead
  | .notText _ | .document _ => .schema
  | .buffer error => error.kind
  | .container _ => .internal
  | .outputWrite _ => .outputWrite
  | .cache _ => .cacheAccess

/-- The problem of a field behind a problem. -/
def BufferError.fieldError? : BufferError → Option FieldError
  | .node _ error | .item _ _ error => some error
  | .unknownItem .. | .sizeMismatch .. | .format _ => none

/-- The wording of a problem, as far as it is this library's. -/
def CompileError.message? : CompileError → Option String
  | .inputRead _ | .outputWrite _ | .cache _ => none
  | .notText error => some s!"Schema error: source is not valid UTF-8: {error.message}"
  | .document error => error.message?.map fun text => s!"Schema error: {text}"
  | .buffer (.format error) | .container error =>
      error.message?.map fun text => s!"Container error: {text}"
  | .buffer error => error.message?

end SceneForge
