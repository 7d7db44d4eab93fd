import Umber.Classic.Control
import Umber.Lib.Document
import Umber.Lib.Except

/-! Citations and databases come level by level of the included files, which is the order of
reading in place exactly when the levels sort them that way already. -/

set_option autoImplicit false

namespace Umber.Classic

open Document

open Chars (trimStart)
open ExceptLib (bind_eq_ok)
open Umber.Vfs (VirtualPath VirtualFile VfsSnapshot ContentIdentity FileRequest)

inductive AuxEntry where
  | citation (key : List Char)
  | database (name : List Char)

inductive AuxEvent where
  | entry (part : AuxEntry)
  | input (name : List Char)

def AuxEntry.citation? : AuxEntry → Option (List Char)
  | .citation key => some key
  | .database _ => none

def AuxEntry.database? : AuxEntry → Option (List Char)
  | .citation _ => none
  | .database name => some name

def AuxEvent.entry? : AuxEvent → Option AuxEntry
  | .entry part => some part
  | .input _ => none

def AuxEvent.input? : AuxEvent → Option (List Char)
  | .entry _ => none
  | .input name => some name

def valuesOf (line : List Char) (command : AuxCommand) : List (List Char) :=
  match commandValue (trimStart line) command with
  | .ok value => splitArgument value
  | .error _ => []

def lineEvents (line : List Char) : List AuxEvent :=
  (valuesOf line .citation).map (fun key => .entry (.citation key)) ++
    (valuesOf line .bibdata).map (fun name => .entry (.database name)) ++
    (valuesOf line .input).map .input

def auxEvents (bytes : List UInt8) : List AuxEvent :=
  match decodeText bytes with
  | some text => (lines text).flatMap lineEvents
  | none => []

/-- A document is what reading a file in place meets: at the command that includes a file stands
what reading this file meets. -/
def Reads (snapshot : VfsSnapshot) : Document VirtualFile AuxEntry → List AuxEvent → Prop
  | .done, events => events = []
  | .entry part rest, events =>
    ∃ later, events = .entry part :: later ∧ Reads snapshot rest later
  | .included file inside rest, events =>
    ∃ name key later, events = .input name :: later ∧ requestKey .bibAux name = .ok key ∧
      locateAux snapshot (VirtualPath.user name).toOption key = .ok (some file) ∧
      Reads snapshot inside (auxEvents file.bytes) ∧ Reads snapshot rest later

/-- What a session has parsed of the given files is what is in them, and one content identity
stands for one content among them. -/
structure Faithful (session : ClassicControlSession) (files : List VirtualFile) : Prop where
  cached : ∀ entry ∈ session.parsed, ∀ file ∈ files, file.contentId = entry.1 →
    parseAux file.bytes = .ok entry.2
  identified : ∀ first ∈ files, ∀ second ∈ files, first.contentId = second.contentId →
    first.bytes = second.bytes

section

variable {options : ClassicBibOptions} {snapshot : VfsSnapshot}

structure ParsedAux.Holds (parsed : ParsedAux) (events : List AuxEvent) : Prop where
  citations : parsed.citations = (events.filterMap AuxEvent.entry?).filterMap AuxEntry.citation?
  databases : parsed.databases = (events.filterMap AuxEvent.entry?).filterMap AuxEntry.database?
  includes : parsed.includes = events.filterMap AuxEvent.input?

variable {parsed next : ParsedAux} {events : List AuxEvent}

theorem line_holds {line : List Char} (holds : parsed.Holds events)
    (read : parsed.line line = .ok next) : next.Holds (events ++ lineEvents line) := by
  unfold ParsedAux.line at read
  dsimp only at read
  obtain ⟨citations, citing, read⟩ := bind_eq_ok.mp read
  obtain ⟨databases, naming, read⟩ := bind_eq_ok.mp read
  obtain ⟨includes, including, read⟩ := bind_eq_ok.mp read
  obtain ⟨style, styling, read⟩ := bind_eq_ok.mp read
  have gathered : next.citations = parsed.citations ++ splitArgument citations ∧
      next.databases = parsed.databases ++ splitArgument databases ∧
      next.includes = parsed.includes ++ splitArgument includes := by
    cases style with
    | none =>
      cases read
      exact ⟨rfl, rfl, rfl⟩
    | some style => ?_
    by_cases again : parsed.style.isSome = true
    · simp only [again, if_true] at read
      cases read
    simp only [again] at read
    cases read
    exact ⟨rfl, rfl, rfl⟩
  have cites : valuesOf line .citation = splitArgument citations := by rw [valuesOf, citing]
  have names : valuesOf line .bibdata = splitArgument databases := by rw [valuesOf, naming]
  have inputs : valuesOf line .input = splitArgument includes := by rw [valuesOf, including]
  constructor
  · rw [gathered.1, holds.citations]
    simp [lineEvents, cites, Function.comp_def, AuxEvent.entry?, AuxEntry.citation?]
  · rw [gathered.2.1, holds.databases]
    simp [lineEvents, names, Function.comp_def, AuxEvent.entry?, AuxEntry.database?]
  rw [gathered.2.2, holds.includes]
  simp [lineEvents, inputs, Function.comp_def, AuxEvent.input?]

theorem lines_hold {lines : List (List Char)} (holds : parsed.Holds events)
    (read : lines.foldlM ParsedAux.line parsed = .ok next) :
    next.Holds (events ++ lines.flatMap lineEvents) := by
  induction lines generalizing parsed events with
  | nil =>
    cases read
    rw [List.flatMap_nil, List.append_nil]
    exact holds
  | cons line lines smaller => ?_
  rw [List.foldlM_cons] at read
  obtain ⟨between, first, read⟩ := bind_eq_ok.mp read
  have held := smaller (line_holds holds first) read
  rw [List.append_assoc] at held
  exact held

theorem parseAux_holds {bytes : List UInt8} (read : parseAux bytes = .ok parsed) :
    parsed.Holds (auxEvents bytes) := by
  unfold parseAux at read
  unfold auxEvents
  cases decoded : decodeText bytes with
  | none =>
    rw [decoded] at read
    cases read
  | some text => ?_
  rw [decoded] at read
  have empty : ({} : ParsedAux).Holds [] := ⟨rfl, rfl, rfl⟩
  exact lines_hold empty read

variable {document : Document VirtualFile AuxEntry}

section

variable (reads : Reads snapshot document events)
include reads

theorem Reads.own : document.own = events.filterMap AuxEvent.entry? := by
  induction document generalizing events with
  | done =>
    have none_ : events = [] := reads
    rw [none_]
    rfl
  | entry part rest smaller =>
    obtain ⟨later, rfl, reads⟩ := reads
    rw [Document.own, smaller reads]
    rfl
  | included file inside rest _ smaller => ?_
  obtain ⟨name, key, later, rfl, _, _, _, reads⟩ := reads
  rw [Document.own, smaller reads]
  rfl

theorem Reads.includes (depth : Nat) :
    findIncludes snapshot depth (events.filterMap AuxEvent.input?) =
      .ok (document.children.map fun child => (child.1, depth), []) := by
  induction document generalizing events with
  | done =>
    have none_ : events = [] := reads
    rw [none_]
    rfl
  | entry part rest smaller =>
    obtain ⟨later, rfl, reads⟩ := reads
    rw [List.filterMap_cons]
    dsimp only [AuxEvent.input?]
    exact smaller reads
  | included file inside rest _ smaller => ?_
  obtain ⟨name, key, later, rfl, keyed, located, _, reads⟩ := reads
  have found := smaller reads
  rw [List.filterMap_cons]
  dsimp only [AuxEvent.input?]
  unfold findIncludes
  rw [keyed, ExceptLib.ok_bind, located, ExceptLib.ok_bind, found]
  rfl

theorem Reads.children :
    ∀ child ∈ document.children, Reads snapshot child.2 (auxEvents child.1.bytes) := by
  induction document generalizing events with
  | done => exact fun child member => by cases member
  | entry part rest smaller =>
    obtain ⟨later, rfl, reads⟩ := reads
    exact smaller reads
  | included file inside rest _ smaller => ?_
  obtain ⟨name, key, later, rfl, _, _, inner, reads⟩ := reads
  intro child member
  rcases List.mem_cons.mp member with rfl | later
  · exact inner
  · exact smaller reads child later

end

/-! ## The session -/

theorem evict_parsed {entries : Nat} {parsed : List (ContentIdentity × ParsedAux)}
    {order : List ContentIdentity} {evicted : ClassicControlSession}
    (result : ClassicControlSession.evict entries parsed order = .ok evicted) :
    ∀ entry ∈ evicted.parsed, entry ∈ parsed := by
  induction order generalizing parsed with
  | nil =>
    unfold ClassicControlSession.evict at result
    by_cases full : parsed.length ≥ entries
    · rw [if_pos full] at result
      cases result
    rw [if_neg full] at result
    cases result
    exact fun entry member => member
  | cons oldest order smaller => ?_
  unfold ClassicControlSession.evict at result
  by_cases full : parsed.length ≥ entries
  · rw [if_pos full] at result
    intro entry member
    exact (List.mem_filter.mp (smaller result entry member)).1
  rw [if_neg full] at result
  cases result
  exact fun entry member => member

/-- Parsing one of the files gives what is in it, and leaves a session that does so too. -/
theorem Faithful.parse {session after : ClassicControlSession} {files : List VirtualFile}
    {file : VirtualFile} {parsed : ParsedAux} (faithful : Faithful session files)
    (member : file ∈ files) (ran : session.parse file options = (.ok parsed, after)) :
    parseAux file.bytes = .ok parsed ∧ Faithful after files := by
  unfold ClassicControlSession.parse at ran
  dsimp only at ran
  cases hit : session.cached file.contentId with
  | some known =>
    rw [hit] at ran
    cases ran
    unfold ClassicControlSession.cached at hit
    obtain ⟨entry, found, rfl⟩ := Option.map_eq_some_iff.mp hit
    have matched := List.find?_some found
    have same : entry.1 = file.contentId := of_decide_eq_true matched
    exact ⟨faithful.cached entry (List.mem_of_find?_eq_some found) file member same.symm, faithful⟩
  | none => ?_
  rw [hit] at ran
  cases read : parseAux file.bytes with
  | error stop =>
    rw [read] at ran
    cases ran
  | ok fresh => ?_
  rw [read] at ran
  dsimp only at ran
  by_cases caches : options.cacheEntries ≠ 0
  · rw [if_pos caches] at ran
    cases evicting : ClassicControlSession.evict options.cacheEntries session.parsed
        session.order with
    | error stop =>
      rw [evicting] at ran
      cases ran
    | ok evicted => ?_
    rw [evicting] at ran
    cases ran
    refine ⟨rfl, ⟨?_, faithful.identified⟩⟩
    intro entry cached other otherMember same
    rcases List.mem_cons.mp cached with rfl | earlier
    · rw [faithful.identified other otherMember file member same]
      exact read
    exact faithful.cached entry (evict_parsed evicting entry earlier) other otherMember same
  rw [if_neg caches] at ran
  cases ran
  exact ⟨rfl, faithful⟩

/-! ## The walk -/

structure Closure.Extends (closure before : Closure) (entries : List AuxEntry) : Prop where
  citations : closure.citations = before.citations ++ entries.filterMap AuxEntry.citation?
  databases : closure.databases = before.databases ++ entries.filterMap AuxEntry.database?
  missing : closure.missing = before.missing

theorem Closure.Extends.trans {first second third : Closure} {entries later : List AuxEntry}
    (before : second.Extends first entries) (after : third.Extends second later) :
    third.Extends first (entries ++ later) := by
  constructor
  · rw [after.citations, before.citations, List.filterMap_append, List.append_assoc]
  · rw [after.databases, before.databases, List.filterMap_append, List.append_assoc]
  · rw [after.missing, before.missing]

variable {closure : Closure} {file : VirtualFile} {depth : Nat}

/-- Taking up a file that reads as a document gathers the entries of the document itself, and
queues the documents it includes. -/
theorem Closure.take_reads {next : Closure} {children : List (VirtualFile × Nat)}
    (reads : Reads snapshot document (auxEvents file.bytes))
    (holds : parsed.Holds (auxEvents file.bytes))
    (taken : closure.take snapshot file depth parsed = .ok (children, next)) :
    children.map Prod.fst = document.children.map Prod.fst ∧ next.Extends closure document.own := by
  unfold take at taken
  by_cases styles : parsed.style.isSome ∧ closure.style.isSome
  · rw [if_pos styles] at taken
    cases taken
  rw [if_neg styles, holds.includes, reads.includes (depth + 1)] at taken
  cases taken
  refine ⟨by rw [List.map_map]; rfl, ?_, ?_, List.append_nil _⟩
  · rw [reads.own, ← holds.citations]
  · rw [reads.own, ← holds.databases]

def walkFile (options : ClassicBibOptions) (snapshot : VfsSnapshot) (file : VirtualFile)
    (depth : Nat) (queue : List (VirtualFile × Nat)) (closure : Closure)
    (session : ClassicControlSession) : Control Closure × ClassicControlSession :=
  match closure.see options.limits file depth with
  | .error stop => (.error stop, session)
  | .ok seen =>
    match session.parse file options with
    | (.error stop, session) => (.error stop, session)
    | (.ok parsed, session) =>
      match seen.take snapshot file depth parsed with
      | .error stop => (.error stop, session)
      | .ok (children, next) => walk options snapshot (queue ++ children) next session

variable {queue : List (VirtualFile × Nat)} {session : ClassicControlSession}

theorem walk_eq_walkFile (fresh : file.path ∉ closure.seen) :
    walk options snapshot ((file, depth) :: queue) closure session =
      walkFile options snapshot file depth queue closure session := by
  rw [walk, if_neg fresh]
  unfold walkFile
  split
  · rename_i saw
    rw [saw]
  rename_i saw
  rw [saw]
  dsimp only
  cases ran : session.parse file options with
  | mk result after => ?_
  cases result with
  | error stop => rfl
  | ok parsed => ?_
  dsimp only
  split
  · rename_i took
    rw [took]
  rename_i took
  rw [took]

variable {last : Closure} {after : ClassicControlSession}

/-- A walk that ends well has taken up the first file. -/
theorem walkFile_ok
    (walked : walkFile options snapshot file depth queue closure session = (.ok last, after)) :
    ∃ seen parsed between children next, closure.see options.limits file depth = .ok seen ∧
        session.parse file options = (.ok parsed, between) ∧
        seen.take snapshot file depth parsed = .ok (children, next) ∧
        walk options snapshot (queue ++ children) next between = (.ok last, after) := by
  unfold walkFile at walked
  cases saw : closure.see options.limits file depth with
  | error stop =>
    rw [saw] at walked
    cases walked
  | ok seen => ?_
  rw [saw] at walked
  cases ran : session.parse file options with
  | mk result between => ?_
  rw [ran] at walked
  cases result with
  | error stop => cases walked
  | ok parsed => ?_
  dsimp only at walked
  cases took : seen.take snapshot file depth parsed with
  | error stop =>
    rw [took] at walked
    cases walked
  | ok taken =>
    rw [took] at walked
    exact ⟨seen, parsed, between, taken.1, taken.2, rfl, rfl, took, walked⟩

variable {files : List VirtualFile}

/-- The walk takes the documents of its queue in turn. -/
theorem walk_reads {fuel : Nat} {forest : List (VirtualFile × Document VirtualFile AuxEntry)}
    (queued : queue.map Prod.fst = forest.map Prod.fst)
    (reads : ∀ named ∈ forest, Reads snapshot named.2 (auxEvents named.1.bytes))
    (once : (closure.seen ++ (Document.allNames forest).map VirtualFile.path).Nodup)
    (known : ∀ file ∈ Document.allNames forest, file ∈ files) (faithful : Faithful session files)
    (enough : (Document.allNames forest).length ≤ fuel)
    (walked : walk options snapshot queue closure session = (.ok last, after)) :
    last.Extends closure (Document.queued fuel forest) := by
  induction fuel generalizing queue forest closure session with
  | zero =>
    cases forest with
    | cons first forest => exact absurd enough (Nat.not_succ_le_zero _)
    | nil => ?_
    have empty : queue = [] := List.map_eq_nil_iff.mp queued
    rw [empty, walk] at walked
    cases walked
    exact ⟨(List.append_nil _).symm, (List.append_nil _).symm, rfl⟩
  | succ fuel smaller => ?_
  cases forest with
  | nil =>
    have empty : queue = [] := List.map_eq_nil_iff.mp queued
    rw [empty, walk] at walked
    cases walked
    exact ⟨(List.append_nil _).symm, (List.append_nil _).symm, rfl⟩
  | cons named forest => ?_
  cases queue with
  | nil => cases queued
  | cons first queue => ?_
  obtain ⟨file, depth⟩ := first
  obtain ⟨name, document⟩ := named
  injection queued with same queued
  have here : file = name := same
  subst here
  have order := allNames_cons_perm (file, document) forest
  obtain ⟨_, _, apart⟩ := List.nodup_append.mp once
  have fresh : file.path ∉ closure.seen := fun seen =>
    apart file.path seen file.path (List.mem_map_of_mem List.mem_cons_self) rfl
  obtain ⟨seen, parsed, between, children, next, saw, ran, took, walked⟩ :=
    walkFile_ok (walk_eq_walkFile fresh ▸ walked)
  obtain ⟨read, faithful⟩ :=
    faithful.parse (known file List.mem_cons_self) ran
  have inner := reads (file, document) List.mem_cons_self
  obtain ⟨included, gathered⟩ :=
    Closure.take_reads inner (parseAux_holds read) took
  obtain ⟨same, _⟩ := Closure.see_eq_ok saw
  have beyond : next.Extends closure document.own := by
    rw [same] at gathered
    exact ⟨gathered.citations, gathered.databases, gathered.missing⟩
  have distinct : (next.seen ++ (Document.allNames
      (forest ++ document.children)).map VirtualFile.path).Nodup := by
    rw [Closure.take_seen took, same]
    have paths := List.Perm.append_left closure.seen (order.map VirtualFile.path)
    exact (paths.trans List.perm_middle).nodup once
  have rest : last.Extends next
      (Document.queued fuel (forest ++ document.children)) := smaller
    (by rw [List.map_append, List.map_append, queued, included])
    (fun named member => by
      rcases List.mem_append.mp member with earlier | child
      · exact reads named (List.mem_cons_of_mem _ earlier)
      · exact inner.children named child)
    distinct
    (fun other member =>
      known other (order.symm.subset (List.mem_cons_of_mem _ member)))
    faithful
    (by
      rw [order.length_eq] at enough
      exact Nat.le_of_succ_le_succ enough)
    walked
  exact beyond.trans rest

/-! ## Sessions -/

/-- The sessions reached from the empty one, with the files they were given to parse. -/
inductive ClassicControlSession.Ran : List VirtualFile → ClassicControlSession → Prop where
  | new : Ran [] {}
  | parse {files : List VirtualFile} {session after : ClassicControlSession}
      {file : VirtualFile} {options : ClassicBibOptions} {result : Control ParsedAux}
      (earlier : Ran files session) (ran : session.parse file options = (result, after)) :
      Ran (file :: files) after

def Identified (files : List VirtualFile) : Prop :=
  ∀ first ∈ files, ∀ second ∈ files, first.contentId = second.contentId →
    first.bytes = second.bytes

theorem ClassicControlSession.parse_error {stop : ControlStop}
    (ran : session.parse file options = (.error stop, after)) : after = session := by
  unfold ClassicControlSession.parse at ran
  dsimp only at ran
  cases hit : session.cached file.contentId with
  | some known =>
    rw [hit] at ran
    cases ran
  | none => ?_
  rw [hit] at ran
  cases read : parseAux file.bytes with
  | error stop =>
    rw [read] at ran
    cases ran
    rfl
  | ok fresh => ?_
  rw [read] at ran
  dsimp only at ran
  by_cases caches : options.cacheEntries ≠ 0
  · rw [if_pos caches] at ran
    cases evicting : ClassicControlSession.evict options.cacheEntries session.parsed
        session.order with
    | error stop =>
      rw [evicting] at ran
      cases ran
      rfl
    | ok evicted =>
      rw [evicting] at ran
      cases ran
  rw [if_neg caches] at ran
  cases ran

/-- Every session that was reached is faithful to files it was not deceived about. -/
theorem ClassicControlSession.Ran.faithful {earlier : List VirtualFile} (ran : Ran earlier session)
    (identified : Identified files) (known : ∀ file ∈ earlier, file ∈ files) :
    Faithful session files := by
  induction ran with
  | new => exact ⟨fun entry cached => absurd cached List.not_mem_nil, identified⟩
  | @parse parsed session after file options result _ ran smaller => ?_
  have before := smaller fun other member => known other (List.mem_cons_of_mem _ member)
  cases result with
  | error stop =>
    rw [parse_error ran]
    exact before
  | ok fresh => exact (before.parse (known file List.mem_cons_self) ran).2

/-! ## The order of citations -/

/-- The citations of a document in place, with the depths of their files. -/
def citationsIn (document : Document VirtualFile AuxEntry) : List (Nat × List Char) :=
  Document.picked AuxEntry.citation? (document.inPlace 0)

def databasesIn (document : Document VirtualFile AuxEntry) : List (Nat × List Char) :=
  Document.picked AuxEntry.database? (document.inPlace 0)

/-- What the walk from a root file gathers is in place, sorted by depth. -/
theorem walk_byDepth (reads : Reads snapshot document (auxEvents file.bytes))
    (once : ((file :: document.names).map VirtualFile.path).Nodup)
    (faithful : Faithful session (file :: document.names))
    (walked : walk options snapshot [(file, 0)] {} session = (.ok last, after)) :
    last.citations = (Document.byDepth document.height (citationsIn document)).map Prod.snd ∧
      last.databases = (Document.byDepth document.height (databasesIn document)).map Prod.snd := by
  have names : Document.allNames [(file, document)] = file :: document.names :=
    List.flatMap_singleton _ _
  have gathered : last.Extends {} (Document.queued (file :: document.names).length
      [(file, document)]) :=
    walk_reads rfl
      (fun named member => by
        rw [List.mem_singleton.mp member]
        exact reads)
      (by
        rw [names]
        exact once)
      (fun other member => by
        rw [names] at member
        exact member)
      faithful (Nat.le_of_eq (by rw [names])) walked
  have order := @queued_eq_levels _ _ (file :: document.names).length document.height []
    [(file, document)] (Nat.le_of_eq (by rw [List.nil_append, names]))
    (fun named member => absurd member List.not_mem_nil)
    (fun named member => Nat.le_of_eq (by rw [List.mem_singleton.mp member]))
  have levels := order.trans (levels_eq_byDepth document)
  rw [List.nil_append] at levels
  rw [levels] at gathered
  constructor
  · rw [citationsIn, byDepth_picked, picked_snd]
    exact gathered.citations
  rw [databasesIn, byDepth_picked, picked_snd]
  exact gathered.databases

/-- The citations and databases of a control are those of reading the root file in place exactly
when sorting them by the depths of their files leaves both sequences as they are. For distinct
ones this means that none stands behind one of a more deeply included file. -/
theorem resolve_inPlace_iff {root : VirtualPath} {requiredRoot : Bool}
    {key : Umber.Vfs.FileRequestKey} {file : VirtualFile}
    {document : Document VirtualFile AuxEntry} {session after : ClassicControlSession}
    {earlier : List VirtualFile} {control : ClassicControl}
    (ran : ClassicControlSession.Ran earlier session)
    (identified : Identified (earlier ++ file :: document.names))
    (found : findRoot root options snapshot = .ok (key, some file))
    (reads : Reads snapshot document (auxEvents file.bytes))
    (once : ((file :: document.names).map VirtualFile.path).Nodup)
    (resolved : session.resolve root options snapshot requiredRoot = (.ok control, after)) :
    ((control.citations = (citationsIn document).map Prod.snd ∧
        control.databases = (databasesIn document).map Prod.snd) ↔
      Document.Settled document.height (citationsIn document) ∧
        Document.Settled document.height (databasesIn document)) ∧
      (((citationsIn document).map Prod.snd).Nodup → ((databasesIn document).map Prod.snd).Nodup →
          (Document.Settled document.height (citationsIn document) ∧
              Document.Settled document.height (databasesIn document) ↔
            Document.Descends (citationsIn document) ∧
              Document.Descends (databasesIn document))) := by
  have whole := ran.faithful identified fun other member => List.mem_append_left _ member
  have faithful : Faithful session (file :: document.names) :=
    ⟨fun entry cached other member =>
        whole.cached entry cached other (List.mem_append_right _ member),
      fun first one second other =>
        identified first (List.mem_append_right _ one) second (List.mem_append_right _ other)⟩
  unfold ClassicControlSession.resolve at resolved
  rw [found] at resolved
  dsimp only at resolved
  have gathered : control.citations =
        (Document.byDepth document.height (citationsIn document)).map Prod.snd ∧
      control.databases =
        (Document.byDepth document.height (databasesIn document)).map Prod.snd := by
    cases walked : walk options snapshot [(file, 0)] {} session with
    | mk result last => ?_
    rw [walked] at resolved
    cases result with
    | error stop => cases resolved
    | ok closure => ?_
    have order := walk_byDepth reads once faithful walked
    obtain ⟨controlled, _⟩ := Prod.mk.inj resolved
    unfold Closure.control at controlled
    by_cases complete : closure.missing.isEmpty = true
    · rw [if_pos complete] at controlled
      cases controlled
      exact order
    rw [if_neg complete] at controlled
    cases controlled
  have within : ∀ occurrence ∈ document.inPlace 0, occurrence.1 < document.height := by
    intro occurrence member
    have deep := inPlace_height member
    rw [Nat.zero_add] at deep
    exact deep
  constructor
  · rw [gathered.1, gathered.2]
    exact Iff.rfl
  intro citations databases
  exact and_congr
    (settled_iff_descends (picked_within _ within) citations)
    (settled_iff_descends (picked_within _ within) databases)

end

/-! ## A book and its chapter -/

def auxFile (name text : String) : VirtualFile :=
  ⟨⟨("/job/" ++ name).toList⟩, text.toList.map fun character => character.toNat.toUInt8, .user⟩

def book (ending : String) : VirtualFile :=
  auxFile "book.aux" ("\\citation{a}\n\\@input{chapter.aux}\n" ++ ending)

def chapter : VirtualFile := auxFile "chapter.aux" "\\citation{b}\n"

def bookSnapshot (ending : String) : VfsSnapshot :=
  { generation :=
      { user := (OrderedMap.empty.insert (book ending).path (book ending)).insert
          chapter.path chapter
        resolved := .empty
        acceptedGenerated := .empty }
    pendingGenerated := none
    valid := true }

def bookOptions : ClassicBibOptions :=
  { limits := { auxBytes := 1000, auxFiles := 10, auxDepth := 10 }, cacheEntries := 0 }

def bookDocument (ending : Document VirtualFile AuxEntry) : Document VirtualFile AuxEntry :=
  .entry (.citation ['a']) (.included chapter (.entry (.citation ['b']) .done) ending)

def bookControl (ending : List (List Char)) : ClassicControl :=
  { auxFiles := [(book "").path, chapter.path]
    databases := []
    style := none
    citations := ['a'] :: ending ++ [['b']] }

def bookKey : Umber.Vfs.FileRequestKey :=
  ⟨.bibliography, .bibAux, "book.aux".toList, rfl⟩

def chapterKey : Umber.Vfs.FileRequestKey :=
  ⟨.bibliography, .bibAux, "chapter.aux".toList, rfl⟩

def bookClosure (ending : String) (cited : List (List Char)) : Closure :=
  { seen := [(book ending).path]
    auxFiles := [(book ending).path]
    citations := ['a'] :: cited
    bytes := (book ending).bytes.length }

theorem book_resolved {ending : String} {cited : List (List Char)}
    (found : findRoot (book "").path bookOptions (bookSnapshot ending) =
      .ok (bookKey, some (book ending)))
    (first : walkFile bookOptions (bookSnapshot ending) (book ending) 0 [] {} {} =
      walk bookOptions (bookSnapshot ending) [(chapter, 1)] (bookClosure ending cited) {})
    (second : walkFile bookOptions (bookSnapshot ending) chapter 1 []
        (bookClosure ending cited) {} =
      walk bookOptions (bookSnapshot ending) []
        { seen := [chapter.path, (book "").path]
          auxFiles := [(book "").path, chapter.path]
          citations := ['a'] :: cited ++ [['b']]
          bytes := (book ending).bytes.length + chapter.bytes.length } {}) :
    ({} : ClassicControlSession).resolve (book "").path bookOptions (bookSnapshot ending) true =
      (.ok (bookControl cited), {}) := by
  have apart : chapter.path ∉ [(book ending).path] := by
    intro member
    have same : chapter.path.text = (book "").path.text :=
      congrArg VirtualPath.text (List.mem_singleton.mp member)
    exact absurd same (by decide)
  unfold ClassicControlSession.resolve
  rw [found]
  dsimp only
  rw [walk_eq_walkFile (fun seen => absurd seen List.not_mem_nil), first,
    walk_eq_walkFile apart, second, walk]
  rfl

theorem book_once (ending : String) : ((book ending :: [chapter]).map VirtualFile.path).Nodup := by
  refine List.nodup_cons.mpr ⟨?_, List.pairwise_singleton _ _⟩
  intro member
  have same : (book "").path.text = chapter.path.text :=
    congrArg VirtualPath.text (List.mem_singleton.mp member)
  exact absurd same (by decide)

set_option maxRecDepth 4096 in
/-- A book without a citation behind its chapter. -/
theorem resolve_inPlace_iff_book : ∃ control after,
      ({} : ClassicControlSession).resolve (book "").path bookOptions (bookSnapshot "") true =
          (.ok control, after) ∧ control.citations = [['a'], ['b']] ∧ control.databases = [] := by
  have resolved := @book_resolved "" [] rfl rfl rfl
  have identified : Identified ([] ++ book "" :: (bookDocument .done).names) := by
    unfold Identified
    decide +kernel
  have reads : Reads (bookSnapshot "") (bookDocument .done) (auxEvents (book "").bytes) :=
    ⟨_, rfl, _, chapterKey, _, rfl, rfl, rfl, ⟨_, rfl, rfl⟩, rfl⟩
  have meets := (resolve_inPlace_iff .new identified rfl reads (book_once "") resolved).1.mpr
    ⟨rfl, rfl⟩
  exact ⟨_, _, resolved, meets⟩

set_option maxRecDepth 4096 in
/-- A citation behind the chapter comes before the one in it. -/
theorem chapter_cited_last : ∃ control after document,
      ({} : ClassicControlSession).resolve (book "").path bookOptions
          (bookSnapshot "\\citation{c}\n") true = (.ok control, after) ∧
        Reads (bookSnapshot "\\citation{c}\n") document (auxEvents (book "\\citation{c}\n").bytes) ∧
        ((book "\\citation{c}\n" :: document.names).map VirtualFile.path).Nodup ∧
        (citationsIn document).map Prod.snd = [['a'], ['b'], ['c']] ∧
        control.citations = [['a'], ['c'], ['b']] := by
  have resolved := @book_resolved "\\citation{c}\n" [['c']] rfl rfl rfl
  have reads : Reads (bookSnapshot "\\citation{c}\n")
      (bookDocument (.entry (.citation ['c']) .done))
      (auxEvents (book "\\citation{c}\n").bytes) :=
    ⟨_, rfl, _, chapterKey, _, rfl, rfl, rfl, ⟨_, rfl, rfl⟩, _, rfl, rfl⟩
  exact ⟨_, _, _, resolved, reads, book_once _, rfl, rfl⟩

end Umber.Classic
