import Umber.Vfs.Locate
import Umber.Lib.Chars
import Umber.Lib.Utf8

/-! Classic control: the auxiliary files a job starts from, the commands BibTeX owns in them,
and the walk over the files they include. -/

set_option autoImplicit false

namespace Umber.Classic

open Chars (trimStart trim splitAt)
open Umber.Vfs (VirtualPath VirtualFile VfsSnapshot FileKind FileRequest FileRequestKey
  ContentIdentity SnapshotError Fault locate)

structure ClassicBibLimits where
  auxBytes : Nat
  auxFiles : Nat
  auxDepth : Nat

structure ClassicBibOptions where
  limits : ClassicBibLimits
  cacheEntries : Nat

inductive ClassicBibFailure where
  | malformedInput
  | limit
  | resourceConflict

inductive ControlFailure where
  | need (required : List FileRequest)
  | terminal (kind : ClassicBibFailure) (message : String)

inductive ControlStop where
  | failure (failure : ControlFailure)
  | panicked
  | diverged

abbrev Control (α : Type) := Except ControlStop α

def malformed {α : Type} (message : String) : Control α :=
  .error (.failure (.terminal .malformedInput message))

def overLimit {α : Type} (message : String) : Control α :=
  .error (.failure (.terminal .limit message))

def decodeScalars : Nat → List UInt8 → Option (List Char)
  | _, [] => some []
  | 0, _ :: _ => none
  | fuel + 1, byte :: rest =>
    match Utf8.decode (byte :: rest) with
    | none => none
    | some (scalar, width) =>
      (decodeScalars fuel ((byte :: rest).drop width)).map (Char.ofNat scalar :: ·)

def decodeText (bytes : List UInt8) : Option (List Char) :=
  decodeScalars bytes.length bytes

def endLine : List Char → List Char
  | '\r' :: line => line.reverse
  | line => line.reverse

/-- The lines of a text, with the characters read of the current one in reverse. -/
def linesFrom : List Char → List Char → List (List Char)
  | [], [] => []
  | line, [] => [line.reverse]
  | line, '\n' :: text => endLine line :: linesFrom [] text
  | line, character :: text => linesFrom (character :: line) text

def lines (text : List Char) : List (List Char) :=
  linesFrom [] text

def splitValues (value : List Char) : List (List Char) :=
  ((splitAt ',' value).map trim).filter fun value => !value.isEmpty

inductive AuxCommand where
  | citation
  | bibdata
  | input
  | bibstyle

def AuxCommand.text : AuxCommand → List Char
  | .citation => "\\citation".toList
  | .bibdata => "\\bibdata".toList
  | .input => "\\@input".toList
  | .bibstyle => "\\bibstyle".toList

def commandValue (line : List Char) (command : AuxCommand) : Control (Option (List Char)) :=
  if command.text.isPrefixOf line then
    match trimStart (line.drop command.text.length) with
    | '{' :: argument =>
      if argument.contains '}' then .ok (some (argument.takeWhile fun next => next != '}'))
      else malformed ("unterminated " ++ String.ofList command.text ++ " command in classic AUX")
    | _ => .ok none
  else .ok none

structure ParsedAux where
  citations : List (List Char) := []
  databases : List (List Char) := []
  style : Option (List Char) := none
  includes : List (List Char) := []

def splitArgument : Option (List Char) → List (List Char)
  | none => []
  | some value => splitValues value

def ParsedAux.line (parsed : ParsedAux) (line : List Char) : Control ParsedAux := do
  let line := trimStart line
  let citations ← commandValue line .citation
  let databases ← commandValue line .bibdata
  let includes ← commandValue line .input
  let style ← commandValue line .bibstyle
  let parsed :=
    { parsed with
      citations := parsed.citations ++ splitArgument citations
      databases := parsed.databases ++ splitArgument databases
      includes := parsed.includes ++ splitArgument includes }
  match style with
  | none => pure parsed
  | some style =>
    if parsed.style.isSome then
      malformed "classic AUX file contains multiple \\bibstyle commands"
    else pure { parsed with style := some style }

def parseAux (bytes : List UInt8) : Control ParsedAux :=
  match decodeText bytes with
  | none => malformed "classic AUX is not valid UTF-8"
  | some text => (lines text).foldlM ParsedAux.line {}

def fxhash (value : List Char) : UInt64 :=
  (String.ofList value).toUTF8.toList.foldl
    (fun hash byte => (hash * 0x100000001B3) ^^^ byte.toUInt64) 0xCBF29CE484222325

def requestKey (kind : FileKind) (value : List Char) : Control FileRequestKey :=
  let name := if Umber.Vfs.jobRoot.isPrefixOf value then value.drop Umber.Vfs.jobRoot.length
    else value
  match FileRequestKey.new kind name with
  | .ok key => .ok key
  | .error _ =>
    match FileRequestKey.new kind
        ("opaque/".toList ++ Nat.toDigits 16 (fxhash value).toNat) with
    | .ok key => .ok key
    | .error _ => .error .panicked

def locateAux (snapshot : VfsSnapshot) (exact : Option VirtualPath) (request : FileRequestKey) :
    Control (Option VirtualFile) :=
  match locate snapshot exact request with
  | .ok file => .ok file
  | .error (.panicked _) => .error .panicked
  | .error (.error .stale) =>
    .error (.failure (.terminal .resourceConflict "VFS snapshot generation is stale"))
  | .error (.error (.enumerationLimitExceeded limit)) =>
    overLimit ("VFS enumeration exceeds result limit " ++ toString limit)

structure ClassicControl where
  auxFiles : List VirtualPath
  databases : List (List Char)
  style : Option (List Char)
  citations : List (List Char)

def emptyControl : ClassicControl :=
  { auxFiles := [], databases := [], style := none, citations := [] }

structure ClassicControlSession where
  parsed : List (ContentIdentity × ParsedAux) := []
  order : List ContentIdentity := []

namespace ClassicControlSession

def cached (session : ClassicControlSession) (key : ContentIdentity) : Option ParsedAux :=
  (session.parsed.find? fun entry => entry.1 = key).map Prod.snd

/-- Make room for one more parsed file. With nothing left to evict the loop does not end. -/
def evict (entries : Nat) :
    List (ContentIdentity × ParsedAux) → List ContentIdentity → Control ClassicControlSession
  | parsed, [] => if parsed.length ≥ entries then .error .diverged else .ok { parsed, order := [] }
  | parsed, oldest :: order =>
    if parsed.length ≥ entries then
      evict entries (parsed.filter fun entry => entry.1 ≠ oldest) order
    else .ok { parsed, order := oldest :: order }

def parse (session : ClassicControlSession) (file : VirtualFile) (options : ClassicBibOptions) :
    Control ParsedAux × ClassicControlSession :=
  let key := file.contentId
  match session.cached key with
  | some parsed => (.ok parsed, session)
  | none =>
    match parseAux file.bytes with
    | .error stop => (.error stop, session)
    | .ok parsed =>
      if options.cacheEntries ≠ 0 then
        match evict options.cacheEntries session.parsed session.order with
        | .error stop => (.error stop, session)
        | .ok evicted =>
          (.ok parsed,
            { parsed := (key, parsed) :: evicted.parsed, order := evicted.order ++ [key] })
      else (.ok parsed, session)

end ClassicControlSession

structure Closure where
  seen : List VirtualPath := []
  auxFiles : List VirtualPath := []
  databases : List (List Char) := []
  citations : List (List Char) := []
  style : Option (List Char) := none
  bytes : Nat := 0
  missing : List FileRequest := []

def findIncludes (snapshot : VfsSnapshot) (depth : Nat) :
    List (List Char) → Control (List (VirtualFile × Nat) × List FileRequest)
  | [] => .ok ([], [])
  | name :: names => do
    let key ← requestKey .bibAux name
    let found ← locateAux snapshot (VirtualPath.user name).toOption key
    let (files, missing) ← findIncludes snapshot depth names
    match found with
    | some child => pure ((child, depth) :: files, missing)
    | none => pure (files, { key, originalName := name } :: missing)

def Closure.take (closure : Closure) (snapshot : VfsSnapshot) (file : VirtualFile) (depth : Nat)
    (parsed : ParsedAux) : Control (List (VirtualFile × Nat) × Closure) :=
  if parsed.style.isSome ∧ closure.style.isSome then
    malformed "classic AUX closure contains multiple \\bibstyle commands"
  else
    match findIncludes snapshot (depth + 1) parsed.includes with
    | .error stop => .error stop
    | .ok (children, missing) =>
      .ok (children,
        { closure with
          auxFiles := closure.auxFiles ++ [file.path]
          databases := closure.databases ++ parsed.databases
          citations := closure.citations ++ parsed.citations
          style := parsed.style.or closure.style
          missing := closure.missing ++ missing })

def Closure.see (closure : Closure) (limits : ClassicBibLimits) (file : VirtualFile)
    (depth : Nat) : Control Closure :=
  let seen := file.path :: closure.seen
  let bytes := closure.bytes + file.bytes.length
  if seen.length > limits.auxFiles then overLimit "classic AUX file limit exceeded"
  else if depth > limits.auxDepth then overLimit "classic AUX include depth limit exceeded"
  else if bytes > limits.auxBytes then overLimit "classic AUX byte limit exceeded"
  else .ok { closure with seen, bytes }

theorem Closure.see_eq_ok {closure next : Closure} {limits : ClassicBibLimits}
    {file : VirtualFile} {depth : Nat} (saw : closure.see limits file depth = .ok next) :
    next = { closure with
      seen := file.path :: closure.seen, bytes := closure.bytes + file.bytes.length } ∧
      next.seen.length ≤ limits.auxFiles := by
  unfold see at saw
  dsimp only at saw
  by_cases files : (file.path :: closure.seen).length > limits.auxFiles
  · rw [if_pos files] at saw
    cases saw
  rw [if_neg files] at saw
  by_cases deep : depth > limits.auxDepth
  · rw [if_pos deep] at saw
    cases saw
  rw [if_neg deep] at saw
  by_cases long : closure.bytes + file.bytes.length > limits.auxBytes
  · rw [if_pos long] at saw
    cases saw
  rw [if_neg long] at saw
  cases saw
  exact ⟨rfl, Nat.le_of_not_lt files⟩

theorem Closure.take_seen {closure next : Closure} {snapshot : VfsSnapshot}
    {file : VirtualFile} {depth : Nat} {parsed : ParsedAux} {children : List (VirtualFile × Nat)}
    (taken : closure.take snapshot file depth parsed = .ok (children, next)) :
    next.seen = closure.seen := by
  unfold take at taken
  by_cases styles : parsed.style.isSome ∧ closure.style.isSome
  · rw [if_pos styles] at taken
    cases taken
  rw [if_neg styles] at taken
  cases found : findIncludes snapshot (depth + 1) parsed.includes with
  | error stop =>
    rw [found] at taken
    cases taken
  | ok included => ?_
  rw [found] at taken
  cases taken
  rfl

def walk (options : ClassicBibOptions) (snapshot : VfsSnapshot)
    (queue : List (VirtualFile × Nat)) (closure : Closure) (session : ClassicControlSession) :
    Control Closure × ClassicControlSession :=
  match queue with
  | [] => (.ok closure, session)
  | (file, depth) :: queue =>
    if file.path ∈ closure.seen then walk options snapshot queue closure session
    else
      match saw : closure.see options.limits file depth with
      | .error stop => (.error stop, session)
      | .ok seen =>
        match session.parse file options with
        | (.error stop, session) => (.error stop, session)
        | (.ok parsed, session) =>
          match took : seen.take snapshot file depth parsed with
          | .error stop => (.error stop, session)
          | .ok (children, next) => walk options snapshot (queue ++ children) next session
termination_by (options.limits.auxFiles - closure.seen.length, queue.length)
decreasing_by
  · exact Prod.Lex.right _ (Nat.lt_succ_self _)
  refine Prod.Lex.left _ _ ?_
  obtain ⟨same, within⟩ := Closure.see_eq_ok saw
  rw [Closure.take_seen took]
  rw [same] at within ⊢
  dsimp only at within ⊢
  rw [List.length_cons] at within ⊢
  omega

def validateLimits (limits : ClassicBibLimits) : Control Unit :=
  if limits.auxBytes = 0 ∨ limits.auxFiles = 0 ∨ limits.auxDepth = 0 then
    overLimit "classic AUX limits must be nonzero"
  else .ok ()

/-- The root file, and the key it is asked for under when it is not there. -/
def findRoot (root : VirtualPath) (options : ClassicBibOptions) (snapshot : VfsSnapshot) :
    Control (FileRequestKey × Option VirtualFile) := do
  validateLimits options.limits
  let rootKey ← requestKey .bibAux root.text
  let rootFile ← locateAux snapshot (some root) rootKey
  pure (rootKey, rootFile)

def Closure.control (closure : Closure) : Control ClassicControl :=
  if closure.missing.isEmpty then
    .ok
      { auxFiles := closure.auxFiles
        databases := closure.databases
        style := closure.style
        citations := closure.citations }
  else .error (.failure (.need closure.missing))

def ClassicControlSession.resolve (session : ClassicControlSession) (root : VirtualPath)
    (options : ClassicBibOptions) (snapshot : VfsSnapshot) (requiredRoot : Bool) :
    Control ClassicControl × ClassicControlSession :=
  match findRoot root options snapshot with
  | .error stop => (.error stop, session)
  | .ok (rootKey, none) =>
    if requiredRoot then
      (.error (.failure (.need [{ key := rootKey, originalName := root.text }])), session)
    else (.ok emptyControl, session)
  | .ok (_, some rootFile) =>
    match walk options snapshot [(rootFile, 0)] {} session with
    | (.error stop, session) => (.error stop, session)
    | (.ok closure, session) => (closure.control, session)

end Umber.Classic
