import Umber.Bib.RawDatabase

/-! The reader of raw bibliography databases. It walks over bytes, cuts texts out of the
decoded source, and goes back to the last line that starts a record where a value does not
end. -/

set_option autoImplicit false

namespace Umber.Bib

structure RawSource where
  input : Text
  offsets : List Nat
  lineStarts : List Nat
  options : BibTexOptions
  offsets_ne : offsets ≠ []
  lineStarts_ne : lineStarts ≠ []

structure Parser where
  at_ : Nat
  work : Nat
  records : List RawBibRecord
  diagnostics : List BibTexDiagnostic
  keys : List (Text × Text)

namespace RawSource

def limits (source : RawSource) : BibTexLimits :=
  source.options.limits

def rawOffset (source : RawSource) (offset : Nat) : Nat :=
  match source.offsets[offset]? with
  | some raw => raw
  | none => source.offsets.getLast source.offsets_ne

def lineIndex (source : RawSource) (byteStart : Nat) : Nat :=
  (source.lineStarts.takeWhile fun start => decide (start ≤ byteStart)).length - 1

theorem lineIndex_lt (source : RawSource) (byteStart : Nat) :
    source.lineIndex byteStart < source.lineStarts.length := by
  have positive := List.length_pos_iff.mpr source.lineStarts_ne
  have bound := (List.takeWhile_sublist
    (fun start => decide (start ≤ byteStart)) (l := source.lineStarts)).length_le
  unfold lineIndex
  omega

def location (source : RawSource) (first last : Nat) : RawBibLocation :=
  let byteStart := source.rawOffset first
  let lineIndex := source.lineIndex byteStart
  { byteStart := byteStart
    byteEnd := source.rawOffset last
    line := lineIndex + 1
    column := byteStart - source.lineStarts.get ⟨lineIndex, source.lineIndex_lt byteStart⟩ + 1 }

def isLineRecordBoundary (source : RawSource) (offset : Nat) : Checked Bool :=
  match slice source.input 0 offset with
  | .error problem => .error problem
  | .ok before =>
    match afterLastNewline before with
    | none => .ok (decide (offset = 0))
    | some line => .ok (trim line).isEmpty

def identifierAt (source : RawSource) (first last : Nat) (text : Text) : RawBibIdentifier :=
  { source := text, folded := toAsciiLowercase text, location := source.location first last }

def advanceWhile (source : RawSource) (test : UInt8 → Bool) (at_ : Nat) : Nat :=
  at_ + ((source.input.drop at_).takeWhile test).length

/-- Where the control sequence ends whose backslash is at a place of a text. -/
def controlEnd (text : Text) (at_ : Nat) : Nat :=
  match text[at_ + 1]? with
  | none => at_ + 1
  | some byte =>
    if isAsciiAlphabetic byte = true then
      at_ + 1 + ((text.drop (at_ + 1)).takeWhile isAsciiAlphabetic).length
    else at_ + 2

def controlSequences (source : RawSource) (start : Nat) (text : Text) :
    Nat → Nat → Checked (List RawBibControlSequence)
  | 0, _ => .error .outOfFuel
  | fuel + 1, at_ =>
    match text[at_]? with
    | none => .ok []
    | some byte =>
      if byte ≠ 0x5C then controlSequences source start text fuel (at_ + 1)
      else
        match slice text at_ (controlEnd text at_) with
        | .error problem => .error problem
        | .ok control =>
          match controlSequences source start text fuel (controlEnd text at_) with
          | .error problem => .error problem
          | .ok later =>
            .ok ({ source := control
                   location :=
                    source.location (start + at_) (start + controlEnd text at_) } :: later)

def rawText (source : RawSource) (start last : Nat) : Checked RawBibText :=
  match slice source.input start last with
  | .error problem => .error problem
  | .ok text =>
    match source.controlSequences start text (text.length + 1) 0 with
    | .error problem => .error problem
    | .ok controls =>
      .ok { source := text, location := source.location start last, controls := controls }

end RawSource

inductive TextEnd where
  | closed
  | outOfWork
  | tooDeep
  | unterminated

structure TextScan where
  ending : TextEnd
  at_ : Nat
  work : Nat
  recovery : Option Nat

def isIdentifierByte (byte : UInt8) : Bool :=
  !isAsciiWhitespace byte &&
    !(byte == 0x3D || byte == 0x2C || byte == 0x7B || byte == 0x7D || byte == 0x28 ||
      byte == 0x29 || byte == 0x22 || byte == 0x23 || byte == 0x40)

def RawBibValuePart.size : RawBibValuePart → Nat
  | .braced text | .quoted text | .number text => text.source.length
  | .macro_ name => name.source.length

namespace RawSource

def noteRecovery (source : RawSource) (byte : UInt8) (at_ : Nat) (recovery : Option Nat) :
    Checked (Option Nat) :=
  if byte = 0x40 then
    match source.isLineRecordBoundary at_ with
    | .error problem => .error problem
    | .ok boundary => .ok (if boundary = true then some at_ else recovery)
  else .ok recovery

def bracedLoop (source : RawSource) (depth : Nat) :
    List UInt8 → Nat → Nat → Nat → Bool → Option Nat → Checked TextScan
  | [], at_, work, _, _, recovery => .ok ⟨.unterminated, at_, work, recovery⟩
  | byte :: rest, at_, work, nesting, escaped, recovery =>
    match source.noteRecovery byte at_ recovery with
    | .error problem => .error problem
    | .ok recovery =>
      if source.limits.maxWork ≤ work + 1 then .ok ⟨.outOfWork, at_, work + 1, recovery⟩
      else if escaped = true then
        source.bracedLoop depth rest (at_ + 1) (work + 1) nesting false recovery
      else if byte = 0x5C then
        source.bracedLoop depth rest (at_ + 1) (work + 1) nesting true recovery
      else if byte = 0x7B then
        if source.limits.maxNesting < depth + (nesting + 1) then
          .ok ⟨.tooDeep, at_ + 1, work + 1, recovery⟩
        else source.bracedLoop depth rest (at_ + 1) (work + 1) (nesting + 1) false recovery
      else if byte = 0x7D then
        if nesting - 1 = 0 then .ok ⟨.closed, at_ + 1, work + 1, recovery⟩
        else source.bracedLoop depth rest (at_ + 1) (work + 1) (nesting - 1) false recovery
      else source.bracedLoop depth rest (at_ + 1) (work + 1) nesting false recovery

def quotedLoop (source : RawSource) (depth : Nat) :
    List UInt8 → Nat → Nat → Nat → Bool → Option Nat → Checked TextScan
  | [], at_, work, _, _, recovery => .ok ⟨.unterminated, at_, work, recovery⟩
  | byte :: rest, at_, work, braces, escaped, recovery =>
    match source.noteRecovery byte at_ recovery with
    | .error problem => .error problem
    | .ok recovery =>
      if escaped = true then
        source.quotedLoop depth rest (at_ + 1) (work + 1) braces false recovery
      else if byte = 0x5C then
        source.quotedLoop depth rest (at_ + 1) (work + 1) braces true recovery
      else if byte = 0x7B then
        if source.limits.maxNesting < depth + (braces + 1) then
          .ok ⟨.tooDeep, at_ + 1, work + 1, recovery⟩
        else source.quotedLoop depth rest (at_ + 1) (work + 1) (braces + 1) false recovery
      else if byte = 0x7D ∧ 0 < braces then
        source.quotedLoop depth rest (at_ + 1) (work + 1) (braces - 1) false recovery
      else if byte = 0x22 ∧ braces = 0 then .ok ⟨.closed, at_ + 1, work + 1, recovery⟩
      else source.quotedLoop depth rest (at_ + 1) (work + 1) braces false recovery

def recoverLoop (source : RawSource) (close : UInt8) :
    List UInt8 → Nat → Nat → Nat → Bool → Bool → Checked (Nat × Nat)
  | [], at_, work, _, _, _ => .ok (at_, work)
  | byte :: rest, at_, work, braces, quoted, escaped =>
    if escaped = true then
      source.recoverLoop close rest (at_ + 1) (work + 1) braces quoted false
    else if byte = 0x5C then
      source.recoverLoop close rest (at_ + 1) (work + 1) braces quoted true
    else if byte = 0x22 then
      source.recoverLoop close rest (at_ + 1) (work + 1) braces (!quoted) false
    else if quoted = true then
      source.recoverLoop close rest (at_ + 1) (work + 1) braces quoted false
    else
      let deeper := if byte = 0x7B then braces + 1 else braces
      let nesting := if byte = 0x7D ∧ 0 < deeper then deeper - 1 else deeper
      match if byte = 0x40 then source.isLineRecordBoundary at_ else .ok false with
      | .error problem => .error problem
      | .ok boundary =>
        if (nesting = 0 ∧ byte = close) ∨ boundary = true then
          .ok (if byte = 0x40 then at_ else at_ + 1, work + 1)
        else if source.limits.maxWork ≤ work + 1 then .ok (at_ + 1, work + 1)
        else source.recoverLoop close rest (at_ + 1) (work + 1) nesting quoted false

/-- Skip to the byte behind the next `@` outside comments. -/
def seekLoop (limit : Nat) : List UInt8 → Bool → Nat → Nat → Bool × Nat × Nat
  | [], _, at_, work => (false, at_, work)
  | byte :: rest, comment, at_, work =>
    if comment = true then
      if byte = 0x0A ∨ limit ≤ work + 1 then
        if limit ≤ work + 1 then (false, at_ + 1, work + 1)
        else seekLoop limit rest false (at_ + 1) (work + 1)
      else seekLoop limit rest true (at_ + 1) (work + 1)
    else if byte = 0x25 then seekLoop limit rest true (at_ + 1) (work + 1)
    else if byte = 0x40 then (true, at_ + 1, work + 1)
    else if limit ≤ work + 1 then (false, at_ + 1, work + 1)
    else seekLoop limit rest false (at_ + 1) (work + 1)

def skipLoop (limit : Nat) (open_ close : UInt8) :
    List UInt8 → Nat → Nat → Nat → Option Nat × Nat × Nat
  | [], at_, work, _ => (none, at_, work)
  | byte :: rest, at_, work, nesting =>
    let deeper := if byte = open_ then nesting + 1 else nesting
    let after := if byte = close then deeper - 1 else deeper
    if byte = close ∧ after = 0 then (some (at_ + 1), at_ + 1, work + 1)
    else if limit ≤ work + 1 then (none, at_ + 1, work + 1)
    else skipLoop limit open_ close rest (at_ + 1) (work + 1) after

end RawSource

/-! ## The parser -/

namespace Parser

variable (source : RawSource)

def peek (parser : Parser) : Option UInt8 :=
  source.input[parser.at_]?

def rest (parser : Parser) : List UInt8 :=
  source.input.drop parser.at_

def error (parser : Parser) (kind : BibTexDiagnosticKind) (offset : Nat)
    (message : BibTexMessage) : Parser :=
  if parser.diagnostics.length < source.limits.maxDiagnostics then
    { parser with
      diagnostics := parser.diagnostics ++
        [{ kind := kind, offset := source.rawOffset offset, message := message }] }
  else parser

def push (parser : Parser) (record : RawBibRecord) : Parser :=
  { parser with records := parser.records ++ [record] }

def space (parser : Parser) : Parser :=
  { parser with at_ := source.advanceWhile isAsciiWhitespace parser.at_ }

def eat (parser : Parser) (byte : UInt8) : Bool × Parser :=
  if parser.peek source = some byte then (true, { parser with at_ := parser.at_ + 1 })
  else (false, parser)

def identifier (parser : Parser) : Checked (Text × Parser) :=
  let last := source.advanceWhile isIdentifierByte parser.at_
  match slice source.input parser.at_ last with
  | .error problem => .error problem
  | .ok text => .ok (text, { parser with at_ := last })

def number (parser : Parser) : Checked (RawBibText × Parser) :=
  let last := source.advanceWhile isAsciiDigit parser.at_
  match source.rawText parser.at_ last with
  | .error problem => .error problem
  | .ok text => .ok (text, { parser with at_ := last })

/-- The parser behind a scan, back at the line it may recover at where nothing closed the
text. -/
def finishText (parser : Parser) (scan : TextScan) (start : Nat) (deep missing : String) :
    Checked (Option RawBibText × Parser) :=
  let scanned : Parser := { parser with at_ := scan.at_, work := scan.work }
  match scan.ending with
  | .closed =>
    match source.rawText start (scan.at_ - 1) with
    | .error problem => .error problem
    | .ok text => .ok (some text, scanned)
  | .outOfWork => .ok (none, scanned)
  | .tooDeep => .ok (none, scanned.error source .limit scan.at_ (.text deep))
  | .unterminated =>
    let recovered : Parser :=
      match scan.recovery with
      | none => scanned
      | some offset => { scanned with at_ := offset }
    .ok (none, recovered.error source .syntax_ start (.text missing))

def braced (parser : Parser) (depth : Nat) : Checked (Option RawBibText × Parser) :=
  let start := parser.at_ + 1
  match source.bracedLoop depth (source.input.drop start) start parser.work 1 false none with
  | .error problem => .error problem
  | .ok scan =>
    parser.finishText source scan start "brace nesting limit exceeded" "unterminated braced value"

def quoted (parser : Parser) (depth : Nat) : Checked (Option RawBibText × Parser) :=
  let start := parser.at_ + 1
  match source.quotedLoop depth (source.input.drop start) start parser.work 0 false none with
  | .error problem => .error problem
  | .ok scan =>
    parser.finishText source scan start "quote brace nesting limit exceeded"
      "unterminated quoted value"

def valuePart (parser : Parser) (depth : Nat) : Checked (Option RawBibValuePart × Parser) :=
  match parser.peek source with
  | none => .ok (none, parser)
  | some byte =>
    if byte = 0x7B then
      match parser.braced source (depth + 1) with
      | .error problem => .error problem
      | .ok (text, after) => .ok (text.map .braced, after)
    else if byte = 0x22 then
      match parser.quoted source (depth + 1) with
      | .error problem => .error problem
      | .ok (text, after) => .ok (text.map .quoted, after)
    else if isAsciiDigit byte = true then
      match parser.number source with
      | .error problem => .error problem
      | .ok (text, after) => .ok (some (.number text), after)
    else
      match parser.identifier source with
      | .error problem => .error problem
      | .ok (name, after) =>
        if name = [] then
          .ok (none, after.error source .syntax_ parser.at_ (.text "expected value"))
        else .ok (some (.macro_ (source.identifierAt parser.at_ after.at_ name)), after)

/-- The parts of a value, joined by `#`. -/
def valueParts (depth : Nat) :
    Nat → Parser → List RawBibValuePart → Nat →
      Checked (Option (List RawBibValuePart) × Parser)
  | 0, _, _, _ => .error .outOfFuel
  | fuel + 1, parser, parts, size =>
    match (parser.space source).valuePart source depth with
    | .error problem => .error problem
    | .ok (none, after) => .ok (none, after)
    | .ok (some part, after) =>
      if source.limits.maxValueBytes < size + part.size then
        .ok (none, after.error source .limit after.at_ (.text "value byte limit exceeded"))
      else
        match (after.space source).eat source 0x23 with
        | (true, next) => valueParts depth fuel next (parts ++ [part]) (size + part.size)
        | (false, next) => .ok (some (parts ++ [part]), next)

def value (parser : Parser) (close : UInt8) (depth : Nat) :
    Checked (Option RawBibValue × Parser) :=
  if source.limits.maxNesting < depth then
    .ok (none, parser.error source .limit parser.at_ (.text "value nesting limit exceeded"))
  else
    let start := parser.space source
    match valueParts source depth (source.input.length + 1) start [] 0 with
    | .error problem => .error problem
    | .ok (none, after) => .ok (none, after)
    | .ok (some parts, after) =>
      if after.peek source = some close ∨ after.peek source = some 0x2C then
        .ok (some { parts := parts, location := source.location start.at_ after.at_ }, after)
      else
        .ok (none, after.error source .syntax_ after.at_ (.text "unexpected token after value"))

def recover (parser : Parser) (close : UInt8) (start : Nat) : Checked Parser :=
  match source.recoverLoop close (parser.rest source) parser.at_ parser.work 0 false false with
  | .error problem => .error problem
  | .ok (at_, work) =>
    let after : Parser := { parser with at_ := at_, work := work }
    .ok (after.push (.recovery (source.location (min start parser.at_) at_)))

def recovery (parser : Parser) (start : Nat) : Parser :=
  parser.push (.recovery (source.location start parser.at_))

def finishRecord (parser : Parser) (close : UInt8) (start : Nat) :
    Checked (Option Nat × Parser) :=
  let spaced := parser.space source
  let separated :=
    match spaced.eat source 0x2C with
    | (true, after) => after.space source
    | (false, after) => after
  match separated.eat source close with
  | (true, after) => .ok (some after.at_, after)
  | (false, after) =>
    match (after.error source .syntax_ start (.text "record has trailing content")).recover
        source close start with
    | .error problem => .error problem
    | .ok recovered => .ok (none, recovered)

def seekRecord (parser : Parser) : Bool × Parser :=
  match RawSource.seekLoop source.limits.maxWork (parser.rest source) false parser.at_
      parser.work with
  | (found, at_, work) => (found, { parser with at_ := at_, work := work })

def skipBalanced (parser : Parser) (open_ close : UInt8) : Option Nat × Parser :=
  match RawSource.skipLoop source.limits.maxWork open_ close (parser.rest source) parser.at_
      parser.work 1 with
  | (some last, at_, work) => (some last, { parser with at_ := at_, work := work })
  | (none, at_, work) =>
    (none, Parser.error source { parser with at_ := at_, work := work } .syntax_ at_
      (.text "unterminated comment record"))

/-! ## Records -/

def parseComment (parser : Parser) (start : Nat) (close : UInt8) : Checked Parser :=
  let open_ : UInt8 := if close = 0x7D then 0x7B else 0x28
  match parser.skipBalanced source open_ close with
  | (none, after) => after.recover source close start
  | (some last, after) =>
    match source.rawText parser.at_ (last - 1) with
    | .error problem => .error problem
    | .ok text => .ok (after.push (.comment text (source.location start last)))

def parsePreamble (parser : Parser) (start : Nat) (close : UInt8) : Checked Parser :=
  match parser.value source close 0 with
  | .error problem => .error problem
  | .ok (none, after) => after.recover source close start
  | .ok (some value, after) =>
    match after.finishRecord source close start with
    | .error problem => .error problem
    | .ok (none, finished) => .ok finished
    | .ok (some last, finished) =>
      .ok (finished.push (.preamble value (source.location start last)))

def parseString (parser : Parser) (start : Nat) (close : UInt8) : Checked Parser :=
  let spaced := parser.space source
  match spaced.identifier source with
  | .error problem => .error problem
  | .ok (text, named) =>
    let name := source.identifierAt spaced.at_ named.at_ text
    match if text = [] then (false, named.space source)
        else (named.space source).eat source 0x3D with
    | (false, after) =>
      (after.error source .syntax_ start (.text "malformed string macro")).recover source
        close start
    | (true, after) =>
      if source.limits.maxMacros ≤
          (after.records.filter RawBibRecord.isString).length + 12 then
        (after.error source .limit start (.text "macro limit exceeded")).recover source close
          start
      else
        match after.value source close 0 with
        | .error problem => .error problem
        | .ok (none, failed) => failed.recover source close start
        | .ok (some value, valued) =>
          match valued.finishRecord source close start with
          | .error problem => .error problem
          | .ok (none, finished) => .ok finished
          | .ok (some last, finished) =>
            .ok (finished.push (.string name value (source.location start last)))

def entryKey (parser : Parser) (close : UInt8) : Checked (RawBibIdentifier × Parser) :=
  let last := source.advanceWhile (fun byte => byte != 0x2C && byte != close) parser.at_
  match slice source.input parser.at_ last with
  | .error problem => .error problem
  | .ok text =>
    let leading := text.length - (trimStart text).length
    .ok
      (source.identifierAt (parser.at_ + leading)
          (parser.at_ + leading + (trim text).length) (trim text),
        { parser with at_ := last })

def noteKey (parser : Parser) (key : RawBibIdentifier) (offset : Nat) : Parser :=
  match parser.keys.lookup key.folded with
  | some previous =>
    parser.error source
      (if previous = key.source then .duplicateEntry else .caseCollision) offset
      (.entryCollides key.source previous)
  | none => { parser with keys := parser.keys ++ [(key.folded, key.source)] }

inductive FieldStep where
  | done (fields : List RawBibField) (parser : Parser)
  | more (fields : List RawBibField) (parser : Parser)
  | failed (parser : Parser)

def entryField (close : UInt8) (key : RawBibIdentifier) (parser : Parser)
    (fields : List RawBibField) : Checked FieldStep :=
  let start := parser.at_
  match parser.identifier source with
  | .error problem => .error problem
  | .ok (text, named) =>
    let name := source.identifierAt start named.at_ text
    match if text = [] then (false, named.space source)
        else (named.space source).eat source 0x3D with
    | (false, after) =>
      .ok (.failed
        (after.error source .syntax_ start (.text "malformed field assignment")))
    | (true, after) =>
      if source.limits.maxFieldsPerEntry ≤ fields.length then
        .ok (.failed (after.error source .limit start (.text "field limit exceeded")))
      else
        match after.value source close 0 with
        | .error problem => .error problem
        | .ok (none, failed) => .ok (.failed failed)
        | .ok (some value, valued) =>
          let noted :=
            if fields.any (fun field => field.name.folded == name.folded) = true then
              valued.error source .duplicateField start
                (.duplicateField name.source key.source)
            else valued
          let grown := fields ++
            [{ name := name
               value := value
               location := source.location start noted.at_ }]
          match (noted.space source).eat source close with
          | (true, closed) => .ok (.done grown closed)
          | (false, open_) =>
            match open_.eat source 0x2C with
            | (true, next) => .ok (.more grown next)
            | (false, stuck) =>
              .ok (.failed (stuck.error source .syntax_ stuck.at_
                (.text "expected comma after field")))

/-- The fields up to the close, or none where one of them is malformed. -/
def entryFields (close : UInt8) (key : RawBibIdentifier) :
    Nat → Parser → List RawBibField → Checked (Option (List RawBibField) × Parser)
  | 0, _, _ => .error .outOfFuel
  | fuel + 1, parser, fields =>
    match (parser.space source).eat source close with
    | (true, closed) => .ok (some fields, closed)
    | (false, open_) =>
      match open_.eat source 0x2C with
      | (true, next) => entryFields close key fuel next fields
      | (false, here) =>
        match entryField source close key here fields with
        | .error problem => .error problem
        | .ok (.more grown next) => entryFields close key fuel next grown
        | .ok (.done grown closed) => .ok (some grown, closed)
        | .ok (.failed stuck) => .ok (none, stuck)

def parseEntry (parser : Parser) (start : Nat) (close : UInt8) (entryType : RawBibIdentifier) :
    Checked Parser :=
  if source.limits.maxEntries ≤ (parser.records.filter RawBibRecord.isEntry).length then
    (parser.error source .limit start (.text "entry limit exceeded")).recover source close start
  else
    let spaced := parser.space source
    match spaced.entryKey source close with
    | .error problem => .error problem
    | .ok (key, keyed) =>
      match if key.source = [] then (false, keyed) else keyed.eat source 0x2C with
      | (false, after) =>
        (after.error source .syntax_ start
          (.text "entry has no key or field separator")).recover source close start
      | (true, after) =>
        match entryFields source close key (source.input.length + 1)
            (after.noteKey source key spaced.at_) [] with
        | .error problem => .error problem
        | .ok (none, stuck) => stuck.recover source close start
        | .ok (some fields, closed) =>
          .ok (closed.push
            (.entry entryType key fields (source.location start closed.at_)))

def commentKind : Text := [0x63, 0x6F, 0x6D, 0x6D, 0x65, 0x6E, 0x74]

def preambleKind : Text := [0x70, 0x72, 0x65, 0x61, 0x6D, 0x62, 0x6C, 0x65]

def stringKind : Text := [0x73, 0x74, 0x72, 0x69, 0x6E, 0x67]

def parseBody (parser : Parser) (start : Nat) (close : UInt8) (kind : RawBibIdentifier) :
    Checked Parser :=
  if kind.folded = commentKind then parser.parseComment source start close
  else if kind.folded = preambleKind then parser.parsePreamble source start close
  else if kind.folded = stringKind then parser.parseString source start close
  else if kind.folded = [] then parser.recover source close start
  else parser.parseEntry source start close kind

/-- The record behind an `@`, and whether the source goes on to a body. -/
def parseRecord (parser : Parser) : Checked (Bool × Parser) :=
  let start := parser.at_ - 1
  let spaced := parser.space source
  match spaced.identifier source with
  | .error problem => .error problem
  | .ok (text, named) =>
    let kind := source.identifierAt spaced.at_ named.at_ text
    let opened := named.space source
    match opened.peek source with
    | none => .ok (false, opened)
    | some open_ =>
      if open_ ≠ 0x7B ∧ open_ ≠ 0x28 then
        .ok (true, (opened.error source .syntax_ start
          (.text "expected `\x7b` or `(` after entry type")).recovery source start)
      else
        match Parser.parseBody source { opened with at_ := opened.at_ + 1 } start
            (if open_ = 0x7B then 0x7D else 0x29) kind with
        | .error problem => .error problem
        | .ok after => .ok (true, after)

def parseLoop : Nat → Parser → Checked Parser
  | 0, _ => .error .outOfFuel
  | fuel + 1, parser =>
    if parser.at_ < source.input.length ∧ parser.work < source.limits.maxWork then
      match parser.seekRecord source with
      | (false, after) => .ok after
      | (true, found) =>
        match found.parseRecord source with
        | .error problem => .error problem
        | .ok (false, after) => .ok after
        | .ok (true, next) => parseLoop fuel next
    else .ok parser

def start : Parser :=
  { at_ := 0, work := 0, records := [], diagnostics := [], keys := [] }

def database (parser : Parser) : RawBibDatabase :=
  let ended :=
    if source.limits.maxWork ≤ parser.work then
      parser.error source .limit parser.at_ (.text "parser work limit exceeded")
    else parser
  { records := ended.records, diagnostics := ended.diagnostics, options := source.options }

end Parser

/-! ## Decoding -/

/-- The decoded spelling of single bytes in the encodings that have one for each byte. -/
abbrev ByteCodec := LegacyEncoding → UInt8 → Option Text

def decodeBytes (codec : ByteCodec) (encoding : LegacyEncoding) :
    Nat → List UInt8 → Option (Text × List Nat)
  | _, [] => some ([], [])
  | offset, byte :: rest =>
    match codec encoding byte with
    | none => none
    | some spelled =>
      match decodeBytes codec encoding (offset + 1) rest with
      | none => none
      | some (text, offsets) =>
        some (spelled ++ text, List.replicate spelled.length offset ++ offsets)

def newlineStarts : Nat → List UInt8 → List Nat
  | _, [] => []
  | offset, byte :: rest =>
    if byte = 0x0A then (offset + 1) :: newlineStarts (offset + 1) rest
    else newlineStarts (offset + 1) rest

def decodedSource (codec : ByteCodec) (bytes : List UInt8) (options : BibTexOptions) :
    Option RawSource :=
  if options.encoding = .utf8 then
    if Utf8.isValid bytes = true then
      some
        { input := bytes
          offsets := List.range (bytes.length + 1)
          lineStarts := 0 :: newlineStarts 0 bytes
          options := options
          offsets_ne := by simp
          lineStarts_ne := List.cons_ne_nil _ _ }
    else none
  else
    match decodeBytes codec options.encoding 0 bytes with
    | none => none
    | some (text, offsets) =>
      some
        { input := text
          offsets := offsets ++ [bytes.length]
          lineStarts := 0 :: newlineStarts 0 bytes
          options := options
          offsets_ne := by simp
          lineStarts_ne := List.cons_ne_nil _ _ }

def parseRawBibtexBytes (codec : ByteCodec) (bytes : List UInt8) (options : BibTexOptions) :
    Checked RawBibDatabase :=
  if options.limits.maxBytes < bytes.length then
    .ok
      { records := []
        diagnostics :=
          [{ kind := .limit, offset := 0, message := .text "datasource byte limit exceeded" }]
        options := options }
  else
    match decodedSource codec bytes options with
    | none =>
      .ok
        { records := []
          diagnostics :=
            [{ kind := .encoding
               offset := 0
               message := .text "datasource cannot be decoded with the selected encoding" }]
          options := options }
    | some source =>
      match Parser.parseLoop source (source.input.length + 1) .start with
      | .error problem => .error problem
      | .ok parser => .ok (parser.database source)

end Umber.Bib
