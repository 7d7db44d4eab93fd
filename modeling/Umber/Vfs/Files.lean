import Umber.Lib.OrderedMap

/-! Virtual files: content identities, canonical paths, typed request keys and the
limits every workspace keeps. -/

set_option autoImplicit false

namespace Umber.Vfs

abbrev Bytes := List UInt8

structure ContentIdentity where
  bytes : Bytes
deriving DecidableEq

inductive ContentDomain where
  | input
  | artifact
  | fontMetric
  | virtualFile
  | virtualPathBinding
  | virtualFileStorage

def ContentDomain.tag : ContentDomain → UInt8
  | .input => 1
  | .artifact => 2
  | .fontMetric => 3
  | .virtualFile => 4
  | .virtualPathBinding => 5
  | .virtualFileStorage => 6

def domainPrefix : Bytes :=
  [117, 109, 98, 101, 114, 45, 99, 111, 110, 116, 101, 110, 116, 0]

def domainVersion : UInt8 := 2

def rotateLeft (word : UInt64) (count : UInt64) : UInt64 :=
  (word <<< count) ||| (word >>> (64 - count))

def rotateRight (word : UInt64) (count : UInt64) : UInt64 :=
  (word >>> count) ||| (word <<< (64 - count))

def wordOfLeBytes (bytes : Bytes) : UInt64 :=
  bytes.foldr (fun byte word => word * 256 + byte.toUInt64) 0

def leBytesOfWord (word : UInt64) : Bytes :=
  [word.toUInt8, (word >>> 8).toUInt8, (word >>> 16).toUInt8, (word >>> 24).toUInt8,
    (word >>> 32).toUInt8, (word >>> 40).toUInt8, (word >>> 48).toUInt8, (word >>> 56).toUInt8]

/-- Four position-keyed lanes over little-endian words, with the bytes that do not
yet fill a word. -/
structure V2Hasher where
  words : List UInt64
  tail : Bytes
  len : UInt64
  wordIndex : UInt64

namespace V2Hasher

def offsets : List UInt64 :=
  [0x243f6a8885a308d3, 0x13198a2e03707344, 0xa4093822299f31d0, 0x082efa98ec4e6c89]

def primes : List UInt64 :=
  [0x9e3779b185ebca87, 0xc2b2ae3d27d4eb4f, 0x165667b19e3779f9, 0x85ebca77c2b2ae63]

def finalKeys : List UInt64 :=
  [0xd6e8feb86659fd93, 0xa5a3564e27f8864f, 0x9e3779b97f4a7c15, 0x94d049bb133111eb]

def positionKey : UInt64 := 0x517cc1b727220a95

def new : V2Hasher :=
  { words := offsets, tail := [], len := 0, wordIndex := 0 }

def mixWord (hasher : V2Hasher) (word : UInt64) : V2Hasher :=
  let lane := (hasher.wordIndex &&& 3).toNat
  let positioned := word + hasher.wordIndex * positionKey + finalKeys.getD lane 0
  let mixed := hasher.words.getD lane 0 ^^^ positioned
  let spread := rotateLeft mixed (23 + lane.toUInt64 * 7) * primes.getD lane 0
  { hasher with
    words := hasher.words.set lane (spread ^^^ (spread >>> (29 - lane.toUInt64 * 3)))
    wordIndex := hasher.wordIndex + 1 }

def absorb (hasher : V2Hasher) : Bytes → V2Hasher
  | b0 :: b1 :: b2 :: b3 :: b4 :: b5 :: b6 :: b7 :: rest =>
    absorb (hasher.mixWord (wordOfLeBytes [b0, b1, b2, b3, b4, b5, b6, b7])) rest
  | remainder => { hasher with tail := remainder }

def write (hasher : V2Hasher) (bytes : Bytes) : V2Hasher :=
  { hasher with len := hasher.len + bytes.length.toUInt64 }.absorb (hasher.tail ++ bytes)

def splitmix64 (value : UInt64) : UInt64 :=
  let value := value + 0x9e3779b97f4a7c15
  let value := (value ^^^ (value >>> 30)) * 0xbf58476d1ce4e5b9
  let value := (value ^^^ (value >>> 27)) * 0x94d049bb133111eb
  value ^^^ (value >>> 31)

def finishLane (hasher : V2Hasher) (lane : Nat) : UInt64 :=
  hasher.words.getD lane 0
    ^^^ rotateLeft (hasher.words.getD ((lane + 1) % 4) 0) (17 + lane.toUInt64 * 5)
    ^^^ rotateRight (hasher.words.getD ((lane + 2) % 4) 0) (11 + lane.toUInt64 * 3)
    ^^^ (hasher.len * finalKeys.getD lane 0)
    ^^^ rotateLeft hasher.wordIndex (lane.toUInt64 * 13)

def finish (hasher : V2Hasher) : ContentIdentity :=
  let hasher :=
    if hasher.tail = [] then hasher else hasher.mixWord (wordOfLeBytes hasher.tail)
  ⟨[0, 1, 2, 3].flatMap fun lane => leBytesOfWord (splitmix64 (hasher.finishLane lane))⟩

end V2Hasher

def hashV2Parts (parts : List Bytes) : ContentIdentity :=
  (parts.foldl V2Hasher.write V2Hasher.new).finish

def ContentIdentity.forDomain (domain : ContentDomain) (bytes : Bytes) : ContentIdentity :=
  hashV2Parts [domainPrefix, [domainVersion], [domain.tag], bytes]

def FileContentId.forBytes (bytes : Bytes) : ContentIdentity :=
  ContentIdentity.forDomain .virtualFile bytes

structure VirtualPath where
  text : List Char
deriving DecidableEq, Ord

inductive VirtualPathError where
  | traversal
  | invalidSyntax
  | empty
  | missingFileName
  | distributionPathMustBeAbsolute
  | outsideRequiredRoot

def VirtualPathError.message : VirtualPathError → String
  | .traversal => "parent traversal is not allowed"
  | .invalidSyntax => "NUL, backslash, colon, and URL-shaped paths are not allowed"
  | .empty => "path is empty"
  | .missingFileName => "path does not name a file"
  | .distributionPathMustBeAbsolute => "distribution paths must be absolute under /texlive"
  | .outsideRequiredRoot => "absolute path is outside its required virtual root"

def splitSlashes : List Char → List (List Char)
  | [] => [[]]
  | char :: rest =>
    match splitSlashes rest with
    | [] => [[char]]
    | component :: later =>
      if char = '/' then [] :: component :: later else (char :: component) :: later

def keepComponents : List (List Char) → Except VirtualPathError (List (List Char))
  | [] => .ok []
  | component :: rest =>
    if component = [] ∨ component = ['.'] then keepComponents rest
    else if component = ['.', '.'] then .error .traversal
    else (keepComponents rest).map (component :: ·)

def normalizeComponents (path : List Char) : Except VirtualPathError (List (List Char)) :=
  if path = [] then .error .empty
  else if path.any fun char => char = '\x00' ∨ char = '\\' ∨ char = ':' then
    .error .invalidSyntax
  else keepComponents (splitSlashes path)

def requireRoot (components : List (List Char)) (root : List Char) :
    Except VirtualPathError (List (List Char)) :=
  match components with
  | [] => .error .missingFileName
  | actual :: suffix => if actual ≠ root then .error .outsideRequiredRoot else .ok suffix

def joinSlashes : List (List Char) → List Char
  | [] => []
  | [component] => component
  | component :: rest => component ++ '/' :: joinSlashes rest

def jobRoot : List Char := ['/', 'j', 'o', 'b', '/']

def distributionRoot : List Char := ['/', 't', 'e', 'x', 'l', 'i', 'v', 'e', '/']

def isAbsolute (path : List Char) : Bool :=
  path.head? = some '/'

namespace VirtualPath

def rooted (root : List Char) (components : List (List Char)) :
    Except VirtualPathError VirtualPath :=
  if components = [] then .error .missingFileName else .ok ⟨root ++ joinSlashes components⟩

def user (path : List Char) : Except VirtualPathError VirtualPath :=
  match normalizeComponents path with
  | .error problem => .error problem
  | .ok components =>
    if isAbsolute path = true then
      match requireRoot components ['j', 'o', 'b'] with
      | .error problem => .error problem
      | .ok suffix => rooted jobRoot suffix
    else rooted jobRoot components

def distribution (path : List Char) : Except VirtualPathError VirtualPath :=
  if isAbsolute path = false then .error .distributionPathMustBeAbsolute
  else
    match normalizeComponents path with
    | .error problem => .error problem
    | .ok components =>
      match requireRoot components ['t', 'e', 'x', 'l', 'i', 'v', 'e'] with
      | .error problem => .error problem
      | .ok suffix => rooted distributionRoot suffix

def isJob (path : VirtualPath) : Bool :=
  jobRoot.isPrefixOf path.text

def isDistribution (path : VirtualPath) : Bool :=
  distributionRoot.isPrefixOf path.text

end VirtualPath

/-- A path beneath `/job`. -/
abbrev JobPath := { path : VirtualPath // path.isJob = true }

/-- A path beneath `/texlive`. -/
abbrev DistributionPath := { path : VirtualPath // path.isDistribution = true }

inductive ResourceDomain where
  | tex
  | bibliography
  | generic
deriving DecidableEq, Ord

inductive FileKind where
  | texInput
  | tfm
  | formatImage
  | bibControl
  | bibData
  | bibConfiguration
  | xmlSchema
  | genericAsset
  | image
  | bibAux
  | classicBibData
  | bibStyle
  | virtualFont
  | pdfFontMap
  | pdfEncoding
  | pdfFontProgram
deriving DecidableEq, Ord

def FileKind.domain : FileKind → ResourceDomain
  | .texInput | .tfm | .formatImage | .image | .virtualFont | .pdfFontMap | .pdfEncoding
  | .pdfFontProgram => .tex
  | .bibControl | .bibData | .bibConfiguration | .xmlSchema | .bibAux | .classicBibData
  | .bibStyle => .bibliography
  | .genericAsset => .generic

structure FileRequestKey where
  domain : ResourceDomain
  kind : FileKind
  normalizedName : List Char
  natural : domain = kind.domain
deriving DecidableEq

instance : Ord FileRequestKey where
  compare left right :=
    (compare left.domain right.domain).then
      ((compare left.kind right.kind).then (compare left.normalizedName right.normalizedName))

inductive RequestKeyError where
  | invalidName (name : List Char) (message : String)
  | kindMismatch (domain : ResourceDomain) (kind : FileKind)

namespace FileRequestKey

def forDomain (domain : ResourceDomain) (kind : FileKind) (name : List Char) :
    Except RequestKeyError FileRequestKey :=
  if natural : domain = kind.domain then
    if isAbsolute name = true then
      .error (.invalidName name "resource request names must be relative")
    else
      match VirtualPath.user name with
      | .error problem => .error (.invalidName name problem.message)
      | .ok path => .ok ⟨domain, kind, path.text.drop jobRoot.length, natural⟩
  else .error (.kindMismatch domain kind)

def new (kind : FileKind) (name : List Char) : Except RequestKeyError FileRequestKey :=
  forDomain kind.domain kind name

end FileRequestKey

inductive FileOrigin where
  | user
  | resolved (request : FileRequestKey)
  | generated
deriving DecidableEq

structure VirtualFile where
  path : VirtualPath
  bytes : Bytes
  origin : FileOrigin
deriving DecidableEq

def VirtualFile.contentId (file : VirtualFile) : ContentIdentity :=
  FileContentId.forBytes file.bytes

def VirtualFile.size (file : VirtualFile) : Nat :=
  file.bytes.length

inductive VfsLimitKind where
  | userFiles
  | resolvedFiles
  | stageFiles
  | generatedFiles
  | oneFileBytes
  | userBytes
  | resolvedBytes
  | stageBytes
  | generatedBytes
deriving DecidableEq

structure VfsLimits where
  userFiles : Nat
  resolvedFiles : Nat
  stageFiles : Nat
  generatedFiles : Nat
  oneFileBytes : Nat
  userBytes : Nat
  resolvedBytes : Nat
  stageBytes : Nat
  generatedBytes : Nat
deriving DecidableEq

inductive VfsLimitError where
  | hardLimitExceeded (kind : VfsLimitKind) (hard attempted : Nat)
  | limitExceeded (kind : VfsLimitKind) (limit attempted : Nat)

def usizeMax : Nat := 18446744073709551615

def saturatingAdd (left right : Nat) : Nat :=
  min (left + right) usizeMax

namespace VfsLimits

def limit (limits : VfsLimits) : VfsLimitKind → Nat
  | .userFiles => limits.userFiles
  | .resolvedFiles => limits.resolvedFiles
  | .stageFiles => limits.stageFiles
  | .generatedFiles => limits.generatedFiles
  | .oneFileBytes => limits.oneFileBytes
  | .userBytes => limits.userBytes
  | .resolvedBytes => limits.resolvedBytes
  | .stageBytes => limits.stageBytes
  | .generatedBytes => limits.generatedBytes

def hardMax : VfsLimits :=
  { userFiles := 4096
    resolvedFiles := 4096
    stageFiles := 4096
    generatedFiles := 4096
    oneFileBytes := 134217728
    userBytes := 67108864
    resolvedBytes := 268435456
    stageBytes := 268435456
    generatedBytes := 268435456 }

def default : VfsLimits :=
  { userFiles := 512
    resolvedFiles := 512
    stageFiles := 512
    generatedFiles := 2048
    oneFileBytes := 100663296
    userBytes := 16777216
    resolvedBytes := 67108864
    stageBytes := 67108864
    generatedBytes := 134217728 }

def validatedKinds : List VfsLimitKind :=
  [.userFiles, .resolvedFiles, .stageFiles, .generatedFiles, .oneFileBytes, .userBytes,
    .resolvedBytes, .stageBytes, .generatedBytes]

def validate (limits : VfsLimits) : Except VfsLimitError VfsLimits :=
  match validatedKinds.find? fun kind => hardMax.limit kind < limits.limit kind with
  | some kind => .error (.hardLimitExceeded kind (hardMax.limit kind) (limits.limit kind))
  | none => .ok limits

def check (limits : VfsLimits) (kind : VfsLimitKind) (attempted : Nat) :
    Except VfsLimitError Unit :=
  if limits.limit kind < attempted then
    .error (.limitExceeded kind (limits.limit kind) attempted)
  else .ok ()

def checkedReplacementTotal (limits : VfsLimits) (kind : VfsLimitKind)
    (current replaced incoming : Nat) : Except VfsLimitError Nat :=
  if current < replaced ∨ usizeMax < current - replaced + incoming then
    .error (.limitExceeded kind (limits.limit kind) usizeMax)
  else
    match limits.check kind (current - replaced + incoming) with
    | .error problem => .error problem
    | .ok () => .ok (current - replaced + incoming)

end VfsLimits

theorem VfsLimits.check_ok {limits : VfsLimits} {kind : VfsLimitKind} {attempted : Nat}
    (checked : limits.check kind attempted = .ok ()) : attempted ≤ limits.limit kind := by
  unfold check at checked
  split at checked
  next => cases checked
  next within => exact Nat.le_of_not_lt within

theorem VfsLimits.checkedReplacementTotal_ok {limits : VfsLimits} {kind : VfsLimitKind}
    {current replaced incoming next : Nat}
    (checked : limits.checkedReplacementTotal kind current replaced incoming = .ok next) :
    replaced ≤ current ∧ next = current - replaced + incoming ∧ next ≤ limits.limit kind := by
  unfold checkedReplacementTotal at checked
  split at checked
  next => cases checked
  rename_i fits
  cases within : limits.check kind (current - replaced + incoming) with
  | error problem =>
    rw [within] at checked
    cases checked
  | ok unit => ?_
  rw [within] at checked
  cases checked
  exact ⟨Nat.le_of_not_lt fun short => fits (.inl short), rfl, check_ok within⟩

theorem VfsLimits.validate_ok {limits validated : VfsLimits}
    (valid : limits.validate = .ok validated) :
    validated = limits ∧ limits.resolvedFiles ≤ hardMax.resolvedFiles := by
  unfold validate at valid
  cases exceeded : validatedKinds.find? fun kind => hardMax.limit kind < limits.limit kind with
  | some kind =>
    rw [exceeded] at valid
    cases valid
  | none => ?_
  rw [exceeded] at valid
  cases valid
  have within := List.find?_eq_none.mp exceeded .resolvedFiles (by decide)
  exact ⟨rfl, Nat.le_of_not_lt fun more => within (decide_eq_true more)⟩

theorem VirtualPath.rooted_isDistribution {components : List (List Char)} {path : VirtualPath}
    (built : rooted distributionRoot components = .ok path) : path.isDistribution = true := by
  unfold rooted at built
  split at built
  · cases built
  cases built
  exact List.isPrefixOf_iff_prefix.mpr (List.prefix_append ..)

theorem VirtualPath.distribution_isDistribution {text : List Char} {path : VirtualPath}
    (canonical : distribution text = .ok path) : path.isDistribution = true := by
  unfold distribution at canonical
  split at canonical
  · cases canonical
  cases normalized : normalizeComponents text with
  | error problem =>
    rw [normalized] at canonical
    cases canonical
  | ok components => ?_
  rw [normalized] at canonical
  cases suffixed : requireRoot components ['t', 'e', 'x', 'l', 'i', 'v', 'e'] with
  | error problem =>
    simp only [suffixed] at canonical
    cases canonical
  | ok suffix =>
    simp only [suffixed] at canonical
    exact rooted_isDistribution canonical

end Umber.Vfs
