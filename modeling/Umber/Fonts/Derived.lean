import Mathlib.Data.Fintype.Card
import Umber.Arith.FixWord

/-! Fonts made of other fonts: copied, letterspaced and expanded ones. -/

set_option autoImplicit false

namespace Umber.Fonts

open Umber.Arith
open ExceptLib

/-! ## Metrics -/

inductive CharTag where
  | none
  | ligKern (programIndex : UInt8) (startIndex : UInt16)
  | nextLarger (next : UInt8)
  | extensible (index : UInt8)

structure CharMetrics where
  width : Scaled
  height : Scaled
  depth : Scaled
  italicCorrection : Scaled
  tag : CharTag

structure LigatureCommand where
  replacement : UInt8
  deleteCurrent : Bool
  deleteNext : Bool
  passOver : UInt8

inductive LigKernCommand where
  | ligature (command : LigatureCommand)
  | kern (amount : Scaled)

structure LigKernInstruction where
  skipByte : UInt8
  nextChar : UInt8
  command : Option LigKernCommand

structure ExtensibleRecipe where
  top : Option UInt8
  middle : Option UInt8
  bottom : Option UInt8
  repeated : UInt8

def widthTable (characters : List (Option CharMetrics)) : List Scaled :=
  (List.range 256).map fun code => (characters[code]?.join.map CharMetrics.width).getD 0

structure FontMetrics where
  characters : List (Option CharMetrics)
  widths : List Scaled
  ligKernProgram : List LigKernInstruction
  rightBoundaryChar : Option UInt8
  leftBoundaryProgram : Option UInt16
  extensibleRecipes : List ExtensibleRecipe
  dense : widths = widthTable characters

namespace FontMetrics

def new (characters : List (Option CharMetrics)) (ligKernProgram : List LigKernInstruction)
    (rightBoundaryChar : Option UInt8) (leftBoundaryProgram : Option UInt16)
    (extensibleRecipes : List ExtensibleRecipe) : FontMetrics where
  characters
  widths := widthTable characters
  ligKernProgram
  rightBoundaryChar
  leftBoundaryProgram
  extensibleRecipes
  dense := rfl

def character (self : FontMetrics) (code : UInt8) : Option CharMetrics :=
  self.characters[code.toNat]?.join

def charExists (self : FontMetrics) (code : UInt8) : Bool := (self.character code).isSome

def nextLarger (self : FontMetrics) (code : UInt8) : Option UInt8 :=
  match (self.character code).map CharMetrics.tag with
  | some (.nextLarger next) => some next
  | _ => none

end FontMetrics

/-! ## Validation -/

/-- `unfinished` marks a chain that has used up the rounds the model grants it. -/
inductive FontMetricsValidationError where
  | tooManyCharacters (len : Nat)
  | ligKernProgramIndexOutOfBounds (character : Nat) (field : String) (index : UInt16) (len : Nat)
  | extensibleRecipeIndexOutOfBounds (character : Nat) (index : UInt8) (len : Nat)
  | leftBoundaryProgramOutOfBounds (index : UInt16) (len : Nat)
  | ligKernProgramTooLong (len max : Nat)
  | ligKernSkipOutOfBounds (instruction target len : Nat)
  | ligKernCharacterMissing (instruction : Nat) (field : String) (character : UInt8)
  | extensibleRecipeCharacterMissing (recipe : Nat) (field : String) (character : UInt8)
  | nextLargerCycle (character : Nat)
  | unfinished

abbrev Validation := Except FontMetricsValidationError Unit

def maxLigKernProgramLen : Nat := 65536

namespace FontMetrics

def checkProgramIndex (self : FontMetrics) (code : Nat) (field : String) (index : UInt16) :
    Validation :=
  if self.ligKernProgram.length ≤ index.toNat then
    .error (.ligKernProgramIndexOutOfBounds code field index self.ligKernProgram.length)
  else .ok ()

def checkTag (self : FontMetrics) (code : Nat) : CharTag → Validation
  | .none | .nextLarger _ => .ok ()
  | .ligKern programIndex startIndex => do
    self.checkProgramIndex code "source" programIndex.toUInt16
    self.checkProgramIndex code "start" startIndex
  | .extensible index =>
    if self.extensibleRecipes.length ≤ index.toNat then
      .error (.extensibleRecipeIndexOutOfBounds code index self.extensibleRecipes.length)
    else .ok ()

def checkTags (self : FontMetrics) : Nat → List (Option CharTag) → Validation
  | _, [] => .ok ()
  | code, none :: rest => self.checkTags (code + 1) rest
  | code, some tag :: rest => do
    self.checkTag code tag
    self.checkTags (code + 1) rest

def checkLeftBoundary (self : FontMetrics) : Validation :=
  match self.leftBoundaryProgram with
  | some index =>
    if self.ligKernProgram.length ≤ index.toNat then
      .error (.leftBoundaryProgramOutOfBounds index self.ligKernProgram.length)
    else .ok ()
  | none => .ok ()

def checkInstruction (self : FontMetrics) (index : Nat) (instruction : LigKernInstruction) :
    Validation := do
  let target := index + instruction.skipByte.toNat + 1
  if instruction.skipByte < 128 ∧ self.ligKernProgram.length ≤ target then
    .error (.ligKernSkipOutOfBounds index target self.ligKernProgram.length)
  else if instruction.skipByte ≤ 128 then
    if some instruction.nextChar ≠ self.rightBoundaryChar ∧
        ¬ self.charExists instruction.nextChar = true then
      .error (.ligKernCharacterMissing index "match" instruction.nextChar)
    else
      match instruction.command with
      | some (.ligature command) =>
        if self.charExists command.replacement then .ok ()
        else .error (.ligKernCharacterMissing index "replacement" command.replacement)
      | _ => .ok ()
  else .ok ()

def checkProgram (self : FontMetrics) : Nat → List LigKernInstruction → Validation
  | _, [] => .ok ()
  | index, instruction :: rest => do
    self.checkInstruction index instruction
    self.checkProgram (index + 1) rest

def checkPiece (self : FontMetrics) (index : Nat) (field : String) : Option UInt8 → Validation
  | some character =>
    if self.charExists character then .ok ()
    else .error (.extensibleRecipeCharacterMissing index field character)
  | none => .ok ()

def checkRecipes (self : FontMetrics) : Nat → List ExtensibleRecipe → Validation
  | _, [] => .ok ()
  | index, recipe :: rest => do
    self.checkPiece index "top" recipe.top
    self.checkPiece index "middle" recipe.middle
    self.checkPiece index "bottom" recipe.bottom
    self.checkPiece index "repeated" (some recipe.repeated)
    self.checkRecipes (index + 1) rest

/-- Walk a chain of larger characters. Every round marks a code, so 257 rounds suffice. -/
def checkChain (self : FontMetrics) (start : Nat) : Nat → List UInt8 → UInt8 → Validation
  | 0, _, _ => .error .unfinished
  | rounds + 1, seen, code =>
    if code ∈ seen then .error (.nextLargerCycle start)
    else
      match self.nextLarger code with
      | none => .ok ()
      | some next => self.checkChain start rounds (code :: seen) next

def checkChains (self : FontMetrics) : Nat → List (Option CharTag) → Validation
  | _, [] => .ok ()
  | start, none :: rest => self.checkChains (start + 1) rest
  | start, some _ :: rest => do
    self.checkChain start 257 [] (UInt8.ofNat start)
    self.checkChains (start + 1) rest

def tags (self : FontMetrics) : List (Option CharTag) :=
  self.characters.map (·.map CharMetrics.tag)

def validate (self : FontMetrics) : Validation := do
  if 256 < self.characters.length then .error (.tooManyCharacters self.characters.length)
  else if maxLigKernProgramLen < self.ligKernProgram.length then
    .error (.ligKernProgramTooLong self.ligKernProgram.length maxLigKernProgramLen)
  else do
    self.checkTags 0 self.tags
    self.checkLeftBoundary
    self.checkProgram 0 self.ligKernProgram
    self.checkRecipes 0 self.extensibleRecipes
    self.checkChains 0 self.tags

end FontMetrics

theorem checkChain_finishes (metrics : FontMetrics) (start : Nat) {rounds : Nat}
    {seen : List UInt8} (distinct : seen.Nodup) (enough : seen.length + rounds = 257)
    (code : UInt8) : metrics.checkChain start rounds seen code ≠ .error .unfinished := by
  induction rounds generalizing seen code with
  | zero =>
    have few := (distinct.map fun _ _ => UInt8.toFin_inj.mp).length_le_card
    rw [List.length_map, Fintype.card_fin] at few
    exact absurd (Nat.le_trans (Nat.le_of_eq enough.symm) few) (by decide)
  | succ rounds ih => ?_
  rw [FontMetrics.checkChain]
  split
  next => exact nofun
  rename_i fresh
  split
  · exact nofun
  exact ih (List.nodup_cons.mpr ⟨fresh, distinct⟩) (by rw [List.length_cons]; omega) _

namespace FontMetrics

variable (self : FontMetrics)

theorem checkTags_finishes (code : Nat) (tags : List (Option CharTag)) :
    self.checkTags code tags ≠ .error .unfinished := by
  induction tags generalizing code with
  | nil => simp [checkTags]
  | cons tag rest ih => ?_
  cases tag with
  | none => exact ih (code + 1)
  | some tag => ?_
  refine bind_ne_error ?_ fun _ => ih (code + 1)
  cases tag with
  | none => simp [checkTag]
  | nextLarger next => simp [checkTag]
  | ligKern programIndex startIndex =>
    refine bind_ne_error ?_ fun _ => ?_
    all_goals
      rw [checkProgramIndex]
      split <;> simp
  | extensible index =>
    rw [checkTag]
    split <;> simp

theorem checkProgram_finishes (index : Nat) (program : List LigKernInstruction) :
    self.checkProgram index program ≠ .error .unfinished := by
  induction program generalizing index with
  | nil => simp [checkProgram]
  | cons instruction rest ih => ?_
  refine bind_ne_error ?_ fun _ => ih (index + 1)
  rw [checkInstruction]
  repeat' split
  all_goals simp

theorem checkRecipes_finishes (index : Nat) (recipes : List ExtensibleRecipe) :
    self.checkRecipes index recipes ≠ .error .unfinished := by
  have piece : ∀ index field character,
      self.checkPiece index field character ≠ .error .unfinished := by
    intro index field character
    cases character with
    | none => simp [checkPiece]
    | some character =>
      rw [checkPiece]
      split <;> simp
  induction recipes generalizing index with
  | nil => simp [checkRecipes]
  | cons recipe rest ih =>
    exact bind_ne_error (piece _ _ _) fun _ => bind_ne_error (piece _ _ _) fun _ =>
      bind_ne_error (piece _ _ _) fun _ => bind_ne_error (piece _ _ _) fun _ => ih (index + 1)

theorem checkChains_finishes (start : Nat) (tags : List (Option CharTag)) :
    self.checkChains start tags ≠ .error .unfinished := by
  induction tags generalizing start with
  | nil => simp [checkChains]
  | cons tag rest ih => ?_
  cases tag with
  | none => exact ih (start + 1)
  | some tag =>
    exact bind_ne_error (checkChain_finishes self start .nil rfl _) fun _ => ih (start + 1)

/-- The rounds granted to the chains suffice for every font. -/
theorem validate_finishes : self.validate ≠ .error .unfinished := by
  rw [validate]
  split
  · simp
  split
  · simp
  refine bind_ne_error (self.checkTags_finishes _ _) fun _ => bind_ne_error ?_ fun _ =>
    bind_ne_error (self.checkProgram_finishes _ _) fun _ =>
      bind_ne_error (self.checkRecipes_finishes _ _) fun _ => self.checkChains_finishes _ _
  rw [checkLeftBoundary]
  split
  · split <;> simp
  · simp

end FontMetrics

/-! ## Construction -/

inductive FontConstructionError where
  | widthOverflow (character : UInt8)

/-- A reported error, or an expectation that does not hold and stops the process. -/
inductive FontStop where
  | error (error : FontConstructionError)
  | expectation (message : String)

def roundScaledRatio (value : Scaled) (numerator denominator : Int) : Except FontStop Scaled :=
  let product := value.toInt * numerator
  let rounded :=
    if 0 ≤ product then (product + denominator.tdiv 2).tdiv denominator
    else -((-product + denominator.tdiv 2).tdiv denominator)
  if InI32 rounded then .ok (Int32.ofInt rounded)
  else .error (.expectation "bounded letterspace ratio fits i32")

def scaleExpandedMetric (value : Scaled) (ratio : Int16) : Except FontStop Scaled :=
  roundScaledRatio value (1000 + ratio.toInt) 1000

def CharMetrics.addedWidth (metrics : CharMetrics) (delta : Scaled) (code : Nat) :
    Except FontStop CharMetrics :=
  if InI32 (metrics.width.toInt + delta.toInt) then
    .ok { metrics with width := Int32.ofInt (metrics.width.toInt + delta.toInt) }
  else .error (.error (.widthOverflow (UInt8.ofNat code)))

def addedWidths (delta : Scaled) :
    Nat → List (Option CharMetrics) → Except FontStop (List (Option CharMetrics))
  | _, [] => .ok []
  | code, none :: rest => do
    let rest ← addedWidths delta (code + 1) rest
    pure (none :: rest)
  | code, some metrics :: rest => do
    let metrics ← metrics.addedWidth delta code
    let rest ← addedWidths delta (code + 1) rest
    pure (some metrics :: rest)

def expandedCharacter (ratio : Int16) : Option CharMetrics → Except FontStop (Option CharMetrics)
  | none => .ok none
  | some metrics => do
    let width ← scaleExpandedMetric metrics.width ratio
    let italicCorrection ← scaleExpandedMetric metrics.italicCorrection ratio
    pure (some { metrics with width, italicCorrection })

def expandedInstruction (ratio : Int16) (instruction : LigKernInstruction) :
    Except FontStop LigKernInstruction :=
  match instruction.command with
  | some (.kern kern) => do
    let kern ← scaleExpandedMetric kern ratio
    pure { instruction with command := some (.kern kern) }
  | _ => .ok instruction

namespace FontMetrics

def withAddedWidth (self : FontMetrics) (delta : Scaled) : Except FontStop FontMetrics := do
  let characters ← addedWidths delta 0 self.characters
  pure (.new characters self.ligKernProgram self.rightBoundaryChar self.leftBoundaryProgram
    self.extensibleRecipes)

def withExpansionRatio (self : FontMetrics) (ratio : Int16) : Except FontStop FontMetrics := do
  let characters ← self.characters.mapM (expandedCharacter ratio)
  let ligKernProgram ← self.ligKernProgram.mapM (expandedInstruction ratio)
  pure (.new characters ligKernProgram self.rightBoundaryChar self.leftBoundaryProgram
    self.extensibleRecipes)

end FontMetrics

structure Parameters where
  values : List Scaled
  enough : 7 ≤ values.length

def Parameters.resize (values : List Scaled) : Parameters where
  values := values ++ List.replicate (7 - values.length) 0
  enough := by
    rw [List.length_append, List.length_replicate]
    omega

def Parameters.quad (self : Parameters) : Scaled :=
  self.values.get ⟨5, Nat.lt_of_lt_of_le (by decide) self.enough⟩

def Parameters.withQuad (self : Parameters) (currentQuad : Scaled) : Parameters :=
  if self.quad = 0 ∧ 0 < currentQuad.toInt then
    ⟨self.values.set 5 currentQuad, by
      rw [List.length_set]
      exact self.enough⟩
  else self

inductive FontConstruction (Identity : Type) where
  | loaded
  | copied (source : Identity)
  | letterspaced (source : Identity) (amount : Int16) (noLigatures : Bool)
  | expanded (source : Identity) (ratio : Int16)

structure LoadedFont (Identity : Type) where
  name : String
  parameters : Parameters
  sourceParameters : Parameters
  fontInfoWords : Nat
  metrics : FontMetrics
  construction : FontConstruction Identity

inductive Derivation where
  | copied (parameters : List Scaled)
  | letterspaced (currentQuad : Scaled) (amount : Int16) (noLigatures : Bool)
  | expanded (ratio : Int16)

namespace LoadedFont

variable {Identity : Type} (realizedIdentity : LoadedFont Identity → Identity)

def copied (self : LoadedFont Identity) (parameters : List Scaled) : LoadedFont Identity :=
  let parameters := Parameters.resize parameters
  { self with
    parameters
    fontInfoWords :=
      self.fontInfoWords + (parameters.values.length - self.parameters.values.length)
    construction := .copied (realizedIdentity self) }

def letterspaced (self : LoadedFont Identity) (currentQuad : Scaled) (amount : Int16)
    (noLigatures : Bool) : Except FontStop (LoadedFont Identity) := do
  let parameters := self.sourceParameters.withQuad currentQuad
  let delta ← roundScaledRatio parameters.quad amount.toInt 1000
  let metrics ← self.metrics.withAddedWidth delta
  let name :=
    if 0 < amount.toInt then self.name ++ "+" ++ toString amount.toInt ++ "ls"
    else self.name ++ toString amount.toInt ++ "ls"
  pure { self with
    name, parameters, metrics
    construction := .letterspaced (realizedIdentity self) amount noLigatures }

def expanded (self : LoadedFont Identity) (ratio : Int16) :
    Except FontStop (LoadedFont Identity) := do
  let metrics ← self.metrics.withExpansionRatio ratio
  pure { self with metrics, construction := .expanded (realizedIdentity self) ratio }

def derive (self : LoadedFont Identity) : Derivation → Except FontStop (LoadedFont Identity)
  | .copied parameters => .ok (self.copied realizedIdentity parameters)
  | .letterspaced currentQuad amount noLigatures =>
    self.letterspaced realizedIdentity currentQuad amount noLigatures
  | .expanded ratio => self.expanded realizedIdentity ratio

/-- The fonts at the ends of the chains of constructions from one font. -/
inductive Derives (font : LoadedFont Identity) : LoadedFont Identity → Prop
  | refl : Derives font font
  | step {reached next : LoadedFont Identity} {derivation : Derivation}
      (derives : Derives font reached)
      (derived : reached.derive realizedIdentity derivation = .ok next) : Derives font next

end LoadedFont

/-! ## Shapes -/

def LigKernCommand.ligature? : LigKernCommand → Option LigatureCommand
  | .ligature command => some command
  | .kern _ => none

def LigKernInstruction.shape (instruction : LigKernInstruction) :
    UInt8 × UInt8 × Option LigatureCommand :=
  (instruction.skipByte, instruction.nextChar, instruction.command.bind LigKernCommand.ligature?)

structure SameShape (first second : FontMetrics) : Prop where
  tags : second.tags = first.tags
  program : second.ligKernProgram.map LigKernInstruction.shape =
    first.ligKernProgram.map LigKernInstruction.shape
  rightBoundaryChar : second.rightBoundaryChar = first.rightBoundaryChar
  leftBoundaryProgram : second.leftBoundaryProgram = first.leftBoundaryProgram
  extensibleRecipes : second.extensibleRecipes = first.extensibleRecipes

namespace SameShape

variable {first second : FontMetrics} (same : SameShape first second)

include same

theorem characters_length : second.characters.length = first.characters.length := by
  have lengths := congrArg List.length same.tags
  simpa only [FontMetrics.tags, List.length_map] using lengths

theorem program_length : second.ligKernProgram.length = first.ligKernProgram.length := by
  have lengths := congrArg List.length same.program
  simpa only [List.length_map] using lengths

theorem tag_eq (code : UInt8) :
    (second.character code).map CharMetrics.tag = (first.character code).map CharMetrics.tag := by
  have there (metrics : FontMetrics) : (metrics.character code).map CharMetrics.tag =
      metrics.tags[code.toNat]?.join := by
    rw [FontMetrics.character, FontMetrics.tags, List.getElem?_map]
    cases metrics.characters[code.toNat]? <;> rfl
  rw [there, there, same.tags]

theorem charExists_eq (code : UInt8) : second.charExists code = first.charExists code := by
  have tags := congrArg Option.isSome (same.tag_eq code)
  rw [Option.isSome_map, Option.isSome_map] at tags
  exact tags

theorem nextLarger_eq (code : UInt8) : second.nextLarger code = first.nextLarger code := by
  rw [FontMetrics.nextLarger, FontMetrics.nextLarger, same.tag_eq]

theorem checkTag_eq (code : Nat) (tag : CharTag) :
    second.checkTag code tag = first.checkTag code tag := by
  cases tag <;>
    simp only [FontMetrics.checkTag, FontMetrics.checkProgramIndex, same.program_length,
      same.extensibleRecipes]

theorem checkTags_eq (code : Nat) (tags : List (Option CharTag)) :
    second.checkTags code tags = first.checkTags code tags := by
  induction tags generalizing code with
  | nil => rfl
  | cons tag tags ih => ?_
  cases tag with
  | none => exact ih (code + 1)
  | some tag => rw [FontMetrics.checkTags, FontMetrics.checkTags, same.checkTag_eq, ih]

theorem checkInstruction_eq (index : Nat) {before after : LigKernInstruction}
    (shapes : after.shape = before.shape) :
    second.checkInstruction index after = first.checkInstruction index before := by
  obtain ⟨skipByte, nextChar, command⟩ := before
  obtain ⟨skipped, next, commanded⟩ := after
  obtain ⟨rfl, rfl, commands⟩ : skipped = skipByte ∧ next = nextChar ∧
      commanded.bind LigKernCommand.ligature? = command.bind LigKernCommand.ligature? := by
    simpa only [LigKernInstruction.shape, Prod.mk.injEq] using shapes
  simp only [FontMetrics.checkInstruction, same.program_length, same.rightBoundaryChar,
    same.charExists_eq]
  rcases command with _ | command | amount <;> rcases commanded with _ | other | amount <;>
    simp_all [LigKernCommand.ligature?]

theorem checkProgram_eq (index : Nat) {before after : List LigKernInstruction}
    (shapes : after.map LigKernInstruction.shape = before.map LigKernInstruction.shape) :
    second.checkProgram index after = first.checkProgram index before := by
  induction before generalizing index after with
  | nil =>
    rw [List.map_eq_nil_iff.mp shapes]
    rfl
  | cons instruction before ih => ?_
  cases after with
  | nil => cases shapes
  | cons other after => ?_
  obtain ⟨head, tail⟩ := List.cons.inj shapes
  rw [FontMetrics.checkProgram, FontMetrics.checkProgram,
    same.checkInstruction_eq index head, ih (index + 1) tail]

theorem checkPiece_eq (index : Nat) (field : String) (character : Option UInt8) :
    second.checkPiece index field character = first.checkPiece index field character := by
  cases character with
  | none => rfl
  | some character => simp only [FontMetrics.checkPiece, same.charExists_eq]

theorem checkRecipes_eq (index : Nat) (recipes : List ExtensibleRecipe) :
    second.checkRecipes index recipes = first.checkRecipes index recipes := by
  induction recipes generalizing index with
  | nil => rfl
  | cons recipe recipes ih => simp only [FontMetrics.checkRecipes, same.checkPiece_eq, ih]

theorem checkChain_eq (start rounds : Nat) (seen : List UInt8) (code : UInt8) :
    second.checkChain start rounds seen code = first.checkChain start rounds seen code := by
  induction rounds generalizing seen code with
  | zero => rfl
  | succ rounds ih =>
    simp only [FontMetrics.checkChain, same.nextLarger_eq, ih]

theorem checkChains_eq (start : Nat) (tags : List (Option CharTag)) :
    second.checkChains start tags = first.checkChains start tags := by
  induction tags generalizing start with
  | nil => rfl
  | cons tag tags ih => ?_
  cases tag with
  | none => exact ih (start + 1)
  | some tag => rw [FontMetrics.checkChains, FontMetrics.checkChains, same.checkChain_eq, ih]

theorem validate_eq : second.validate = first.validate := by
  simp only [FontMetrics.validate, same.characters_length, same.program_length, same.tags,
    same.checkTags_eq, same.checkProgram_eq 0 same.program, same.extensibleRecipes,
    same.checkRecipes_eq, same.checkChains_eq, FontMetrics.checkLeftBoundary,
    same.leftBoundaryProgram]

end SameShape

/-! ## Steps -/

def RatioFits (value : Scaled) (numerator : Int) : Prop :=
  -2147483648500 < value.toInt * numerator ∧ value.toInt * numerator < 2147483647500

/-- A computation that has a result under a condition and stops the process without it. -/
def Decides {α : Type} (condition : Prop) (computation : Except FontStop α) : Prop :=
  (condition ∧ ∃ result, computation = .ok result) ∨
    ¬ condition ∧ ∃ message, computation = .error (.expectation message)

namespace Decides

variable {α β : Type} {condition other : Prop} {computation : Except FontStop α}

theorem pure_ (result : α) : Decides True (pure result : Except FontStop α) :=
  .inl ⟨trivial, result, rfl⟩

theorem congr (decides : Decides condition computation) (same : condition ↔ other) :
    Decides other computation := by
  unfold Decides at decides ⊢
  rwa [same] at decides

theorem bind {next : α → Except FontStop β} (first : Decides condition computation)
    (second : ∀ result, computation = .ok result → Decides other (next result)) :
    Decides (condition ∧ other) (computation >>= next) := by
  rcases first with ⟨holds, result, computed⟩ | ⟨fails, message, stopped⟩
  · rcases second result computed with ⟨fits, value, rest⟩ | ⟨exceeds, message, rest⟩
    · exact .inl ⟨⟨holds, fits⟩, value, by rw [computed, ok_bind, rest]⟩
    · exact .inr ⟨fun both => exceeds both.2, message, by rw [computed, ok_bind, rest]⟩
  · exact .inr ⟨fun both => fails both.1, message, by rw [stopped, error_bind]⟩

theorem mapM {condition : α → Prop} {step : α → Except FontStop β}
    (decides : ∀ value, Decides (condition value) (step value)) (values : List α) :
    Decides (∀ value ∈ values, condition value) (values.mapM step) := by
  induction values with
  | nil => exact (pure_ []).congr ⟨nofun, fun _ => trivial⟩
  | cons value values ih => ?_
  rw [List.mapM_cons]
  refine ((decides value).bind fun _ _ => ih.bind fun _ _ => pure_ _).congr ?_
  rw [List.forall_mem_cons, and_true]

end Decides

theorem roundScaledRatio_decides (value : Scaled) (numerator : Int) :
    Decides (RatioFits value numerator) (roundScaledRatio value numerator 1000) := by
  have half : (1000 : Int).tdiv 2 = 500 := rfl
  simp only [roundScaledRatio, half]
  generalize rounds : (if 0 ≤ value.toInt * numerator then
      (value.toInt * numerator + 500).tdiv 1000
    else -((-(value.toInt * numerator) + 500).tdiv 1000)) = rounded
  have same : InI32 rounded ↔ RatioFits value numerator := by
    unfold InI32 RatioFits
    rw [← rounds]
    split
    · rw [Int.tdiv_eq_ediv_of_nonneg (by omega)]
      omega
    rw [Int.tdiv_eq_ediv_of_nonneg (by omega)]
    omega
  rw [← same]
  by_cases fits : InI32 rounded
  · exact .inl ⟨fits, _, if_pos fits⟩
  · exact .inr ⟨fits, _, if_neg fits⟩

def CharacterFits (ratio : Int16) (character : Option CharMetrics) : Prop :=
  ∀ metrics, character = some metrics →
    RatioFits metrics.width (1000 + ratio.toInt) ∧
      RatioFits metrics.italicCorrection (1000 + ratio.toInt)

def KernFits (ratio : Int16) (instruction : LigKernInstruction) : Prop :=
  ∀ kern, instruction.command = some (.kern kern) → RatioFits kern (1000 + ratio.toInt)

def DerivationFits {Identity : Type} (font : LoadedFont Identity) : Derivation → Prop
  | .copied _ => True
  | .letterspaced currentQuad amount _ =>
    RatioFits (font.sourceParameters.withQuad currentQuad).quad amount.toInt
  | .expanded ratio =>
    (∀ character ∈ font.metrics.characters, CharacterFits ratio character) ∧
      ∀ instruction ∈ font.metrics.ligKernProgram, KernFits ratio instruction

theorem expandedCharacter_decides (ratio : Int16) (character : Option CharMetrics) :
    Decides (CharacterFits ratio character) (expandedCharacter ratio character) := by
  cases character with
  | none => exact (Decides.pure_ none).congr ⟨nofun, fun _ => trivial⟩
  | some metrics => ?_
  refine ((roundScaledRatio_decides _ _).bind fun _ _ =>
    (roundScaledRatio_decides _ _).bind fun _ _ => Decides.pure_ _).congr ?_
  unfold CharacterFits
  rw [and_true]
  constructor
  · rintro fits _ ⟨⟩
    exact fits
  · exact fun fits => fits metrics rfl

theorem expandedInstruction_decides (ratio : Int16) (instruction : LigKernInstruction) :
    Decides (KernFits ratio instruction) (expandedInstruction ratio instruction) := by
  unfold KernFits expandedInstruction
  split
  next kern kerns =>
    refine ((roundScaledRatio_decides _ _).bind fun _ _ => Decides.pure_ _).congr ?_
    rw [and_true, kerns]
    constructor
    · rintro fits _ ⟨⟩
      exact fits
    · exact fun fits => fits kern rfl
  next other =>
    exact (Decides.pure_ instruction).congr
      ⟨fun _ kern same => absurd same (other kern), fun _ => trivial⟩

theorem withExpansionRatio_decides (metrics : FontMetrics) (ratio : Int16) :
    Decides ((∀ character ∈ metrics.characters, CharacterFits ratio character) ∧
      ∀ instruction ∈ metrics.ligKernProgram, KernFits ratio instruction)
      (metrics.withExpansionRatio ratio) := by
  refine ((Decides.mapM (expandedCharacter_decides ratio) _).bind fun _ _ =>
    (Decides.mapM (expandedInstruction_decides ratio) _).bind fun _ _ => Decides.pure_ _).congr ?_
  rw [and_true]

def Returns {α : Type} (construction : Except FontStop α) : Prop :=
  ∀ message, construction ≠ .error (.expectation message)

theorem Decides.returns_iff {α : Type} {condition : Prop} {computation : Except FontStop α}
    (decides : Decides condition computation) : Returns computation ↔ condition := by
  rcases decides with ⟨holds, result, computed⟩ | ⟨fails, message, stopped⟩
  · refine ⟨fun _ => holds, fun _ message impossible => ?_⟩
    rw [computed] at impossible
    cases impossible
  · exact ⟨fun returns => absurd stopped (returns message), fun holds => absurd holds fails⟩

theorem Returns.bind {α β : Type} {computation : Except FontStop α} {next : α → Except FontStop β}
    (first : Returns computation)
    (second : ∀ result, computation = .ok result → Returns (next result)) :
    Returns (computation >>= next) := by
  cases computed : computation with
  | error stop =>
    rw [computed] at first
    exact fun message impossible => first message (by injection impossible with same; rw [same])
  | ok result => exact second result computed

theorem Returns.pure_ {α : Type} (result : α) : Returns (pure result : Except FontStop α) :=
  nofun

theorem addedWidth_returns (metrics : CharMetrics) (delta : Scaled) (code : Nat) :
    Returns (metrics.addedWidth delta code) := by
  unfold CharMetrics.addedWidth
  split
  · exact .pure_ _
  · exact nofun

theorem addedWidths_returns (delta : Scaled) (code : Nat)
    (characters : List (Option CharMetrics)) : Returns (addedWidths delta code characters) := by
  induction characters generalizing code with
  | nil => exact .pure_ []
  | cons character characters ih => ?_
  cases character with
  | none => exact (ih _).bind fun _ _ => .pure_ _
  | some metrics =>
    exact (addedWidth_returns metrics delta code).bind fun _ _ =>
      (ih _).bind fun _ _ => .pure_ _

variable {Identity : Type} (realizedIdentity : LoadedFont Identity → Identity)

theorem derive_returns_iff (font : LoadedFont Identity) (derivation : Derivation) :
    Returns (font.derive realizedIdentity derivation) ↔ DerivationFits font derivation := by
  cases derivation with
  | copied parameters => exact ⟨fun _ => trivial, fun _ => Returns.pure_ _⟩
  | letterspaced currentQuad amount noLigatures =>
    have rounds := roundScaledRatio_decides
      (font.sourceParameters.withQuad currentQuad).quad amount.toInt
    constructor
    · intro returns
      rcases rounds with ⟨fits, _⟩ | ⟨_, message, stopped⟩
      · exact fits
      refine absurd ?_ (returns message)
      simp only [LoadedFont.derive, LoadedFont.letterspaced, stopped, error_bind]
    intro fits
    exact (rounds.returns_iff.mpr fits).bind fun _ _ =>
      ((addedWidths_returns _ _ _).bind fun _ _ => .pure_ _).bind fun _ _ => .pure_ _
  | expanded ratio => ?_
  refine Decides.returns_iff (((withExpansionRatio_decides font.metrics ratio).bind
    fun _ _ => Decides.pure_ _).congr ?_)
  rw [and_true]
  rfl

/-! ## Chains -/

theorem addedWidths_tags {delta : Scaled} {code : Nat}
    {characters added : List (Option CharMetrics)}
    (widened : addedWidths delta code characters = .ok added) :
    added.map (·.map CharMetrics.tag) = characters.map (·.map CharMetrics.tag) := by
  induction characters generalizing code added with
  | nil =>
    cases widened
    rfl
  | cons character characters ih => ?_
  cases character with
  | none =>
    obtain ⟨rest, widening, widened⟩ := bind_eq_ok.mp widened
    cases pure_eq_ok.mp widened
    rw [List.map_cons, List.map_cons, ih widening]
  | some metrics => ?_
  obtain ⟨wider, first, widened⟩ := bind_eq_ok.mp widened
  obtain ⟨rest, widening, widened⟩ := bind_eq_ok.mp widened
  cases pure_eq_ok.mp widened
  have tag : wider.tag = metrics.tag := by
    unfold CharMetrics.addedWidth at first
    split at first
    · cases first
      rfl
    · cases first
  rw [List.map_cons, List.map_cons, ih widening, Option.map_some, Option.map_some, tag]

theorem SameShape.refl (metrics : FontMetrics) : SameShape metrics metrics :=
  ⟨rfl, rfl, rfl, rfl, rfl⟩

theorem withAddedWidth_shape {metrics next : FontMetrics} {delta : Scaled}
    (widened : metrics.withAddedWidth delta = .ok next) : SameShape metrics next := by
  obtain ⟨characters, widening, widened⟩ := bind_eq_ok.mp widened
  cases pure_eq_ok.mp widened
  exact ⟨addedWidths_tags widening, rfl, rfl, rfl, rfl⟩

theorem expandedCharacter_tag {ratio : Int16} (character next : Option CharMetrics)
    (expanded : expandedCharacter ratio character = .ok next) :
    next.map CharMetrics.tag = character.map CharMetrics.tag := by
  cases character with
  | none =>
    cases expanded
    rfl
  | some metrics => ?_
  obtain ⟨width, _, expanded⟩ := bind_eq_ok.mp expanded
  obtain ⟨italicCorrection, _, expanded⟩ := bind_eq_ok.mp expanded
  cases pure_eq_ok.mp expanded
  rfl

theorem expandedInstruction_shape {ratio : Int16} (instruction next : LigKernInstruction)
    (expanded : expandedInstruction ratio instruction = .ok next) :
    next.shape = instruction.shape := by
  unfold expandedInstruction at expanded
  split at expanded
  next kern kerns =>
    obtain ⟨scaled, _, expanded⟩ := bind_eq_ok.mp expanded
    cases pure_eq_ok.mp expanded
    simp only [LigKernInstruction.shape, kerns]
    rfl
  cases expanded
  rfl

theorem withExpansionRatio_shape {metrics next : FontMetrics} {ratio : Int16}
    (expanded : metrics.withExpansionRatio ratio = .ok next) : SameShape metrics next := by
  obtain ⟨characters, scaled, expanded⟩ := bind_eq_ok.mp expanded
  obtain ⟨program, kerned, expanded⟩ := bind_eq_ok.mp expanded
  cases pure_eq_ok.mp expanded
  exact ⟨map_of_mapM expandedCharacter_tag scaled, map_of_mapM expandedInstruction_shape kerned,
    rfl, rfl, rfl⟩

theorem derive_shape {font next : LoadedFont Identity} {derivation : Derivation}
    (derived : font.derive realizedIdentity derivation = .ok next) :
    SameShape font.metrics next.metrics := by
  cases derivation with
  | copied parameters =>
    cases derived
    exact .refl _
  | letterspaced currentQuad amount noLigatures =>
    obtain ⟨delta, _, derived⟩ := bind_eq_ok.mp derived
    obtain ⟨metrics, widened, derived⟩ := bind_eq_ok.mp derived
    cases pure_eq_ok.mp derived
    exact withAddedWidth_shape widened
  | expanded ratio => ?_
  obtain ⟨metrics, scaled, derived⟩ := bind_eq_ok.mp derived
  cases pure_eq_ok.mp derived
  exact withExpansionRatio_shape scaled

theorem widths_dense (metrics : FontMetrics) (code : UInt8) : metrics.widths[code.toNat]? =
    some (((metrics.character code).map CharMetrics.width).getD 0) := by
  have below : code.toNat < 256 := code.toNat_lt
  rw [metrics.dense, widthTable, List.getElem?_map, List.getElem?_range below, Option.map_some]
  rfl

/-- In every chain of constructions the next one returns exactly where its roundings fit, and
the fonts are as valid as the first one. -/
theorem derived_font_returns_iff {font reached : LoadedFont Identity}
    (derives : LoadedFont.Derives realizedIdentity font reached) :
    (∀ derivation, Returns (reached.derive realizedIdentity derivation) ↔
        DerivationFits reached derivation) ∧ (∀ code : UInt8, reached.metrics.widths[code.toNat]? =
        some (((reached.metrics.character code).map CharMetrics.width).getD 0)) ∧
      reached.metrics.validate = font.metrics.validate := by
  refine ⟨derive_returns_iff realizedIdentity reached, widths_dense reached.metrics, ?_⟩
  induction derives with
  | refl => rfl
  | step derives derived ih => exact (derive_shape realizedIdentity derived).validate_eq.trans ih

/-- Two characters with a kern between them, a ligature, and a quad of 20 points. -/
def kernedFont (width : Scaled) : LoadedFont Unit where
  name := "kerned"
  parameters := .resize [0, 0, 0, 0, 0, 1310720]
  sourceParameters := .resize [0, 0, 0, 0, 0, 1310720]
  fontInfoWords := 7
  metrics := .new [some ⟨width, 500, 0, 30, .ligKern 0 0⟩, some ⟨750, 500, 100, 0, .none⟩]
    [⟨0, 1, some (.kern (-50))⟩, ⟨128, 0, some (.ligature ⟨1, true, false, 0⟩)⟩] none none []
  construction := .loaded

/-- Letterspaced by 50 and then shrunk by 20 thousandths, the font can be spaced again. -/
theorem derived_kerned_font_returns : ∃ spaced next,
    (kernedFont 1000).derive (fun _ => ()) (.letterspaced 0 50 false) = .ok spaced ∧
      spaced.derive (fun _ => ()) (.expanded (-20)) = .ok next ∧
      next.metrics.widths.take 3 = [65205, 64960, 0] ∧
      next.metrics.ligKernProgram.map LigKernInstruction.command =
        [some (.kern (-49)), some (.ligature ⟨1, true, false, 0⟩)] ∧
      Returns (next.derive (fun _ => ()) (.letterspaced 0 (-1000) true)) ∧
      next.metrics.validate = .ok () := by
  obtain ⟨spaced, first⟩ : ∃ spaced,
      (kernedFont 1000).derive (fun _ => ()) (.letterspaced 0 50 false) = .ok spaced := ⟨_, rfl⟩
  obtain ⟨next, second⟩ : ∃ next, spaced.derive (fun _ => ()) (.expanded (-20)) = .ok next := by
    cases first
    exact ⟨_, rfl⟩
  obtain ⟨returns, _, valid⟩ :=
    derived_font_returns_iff (fun _ => ()) (.step (.step .refl first) second)
  refine ⟨spaced, next, first, second, ?_, ?_, (returns _).mpr ?_, valid.trans rfl⟩
  · cases first
    cases second
    rfl
  · cases first
    cases second
    rfl
  cases first
  cases second
  exact ⟨by decide, by decide⟩

/-- The widest character of a font at the largest size cannot be expanded to twice its width. -/
theorem wide_font_stops : ∃ width, tfmFixWordToScaled ⟨0, 255, 255, 255⟩ 134217727 = .ok width ∧
    (kernedFont width).metrics.validate = .ok () ∧
    ¬ Returns ((kernedFont width).derive (fun _ => ()) (.expanded 1000)) :=
  ⟨_, rfl, rfl, fun returns => returns _ rfl⟩

end Umber.Fonts
