/-
  Transclude/Proofs/Session/Spelling.lean
  =======================================
  **The spelling of paths never matters.**

  The marker module is recognised by components, so other spellings of its path and
  of the files that declare functions and modules change nothing about which nodes
  are marked.  A file is read by its spelling, which is made from that of the calling
  file; but all spellings of a directory lead to the same file (`Disk.read_join`).

  Two traversals are compared answer by answer: they *match* if they always do the
  same, but for the paths that a failure mentions.  Matching is respected by doing
  one thing after the other, so it passes from visitors to traversals
  (`Node.traverse_matches`), and nothing needs to be known about where the
  traversals go.
-/
import Mathlib.Data.List.Forall2
import Transclude.Proofs.Disk
import Transclude.Proofs.Session.Course
import Transclude.Proofs.Tree.Visits

namespace Transclude

/-! ### Work that matches -/

/-- The same result and the same tally, or failures of the same kind. -/
inductive Matched {α : Type} :
    Except Failure α × Tally → Except Failure α × Tally → Prop
  | ok (a : α) (tally : Tally) : Matched (.ok a, tally) (.ok a, tally)
  | error {failure failure' : Failure} (kind : failure.cause.kind = failure'.cause.kind)
      (tally : Tally) : Matched (.error failure, tally) (.error failure', tally)

/-- From every tally, both do the same or fail in the same way. -/
def Counting.Matches {α : Type} (work work' : Counting α) : Prop :=
  ∀ tally, Matched (work.run tally) (work'.run tally)

namespace Counting.Matches

variable {α β : Type}

theorem pure (a : α) : Matches (Pure.pure a) (Pure.pure a) := fun tally => .ok a tally

theorem refl (work : Counting α) : Matches work work := by
  intro tally
  rcases work.run tally with ⟨result, after⟩
  rcases result with failure | a
  · exact .error rfl after
  · exact .ok a after

theorem bind {first first' : Counting α} {next next' : α → Counting β}
    (hfirst : first.Matches first') (hnext : ∀ a, (next a).Matches (next' a)) :
    (first >>= next).Matches (first' >>= next') := by
  intro tally
  have h := hfirst tally
  rw [Result.run_bind, Result.run_bind]
  generalize first.run tally = result at h ⊢
  generalize first'.run tally = result' at h ⊢
  rcases h with ⟨a, after⟩ | ⟨kind, after⟩
  · exact hnext a after
  · exact .error kind after

end Counting.Matches

section Traversals

variable {visit visit' : Visitor Counting}

mutual

/-- **Visitors that match go through a tree in the same way.** -/
theorem Node.traverse_matches (slot : Option Slot) :
    ∀ n : Node, (∀ m ∈ n.subtrees, ∀ slot, (visit slot m).Matches (visit' slot m)) →
      (n.traverse visit slot).Matches (n.traverse visit' slot)
  | ⟨id, kind, span, children⟩, h => by
    rw [Node.subtrees] at h
    have hbelow := traverseAll_matches ⟨id, kind, span, children⟩ 0 children
      (fun m hm => h m (List.mem_cons_of_mem _ hm))
    rw [Node.traverse, Node.traverse]
    apply Counting.Matches.bind (h _ List.mem_cons_self slot)
    intro verdict
    cases verdict with
    | keep => exact .pure _
    | replace replacement => exact .pure _
    | remove => exact .pure _
    | descend => exact .bind hbelow fun _ => .pure _

theorem traverseAll_matches (parent : Node) (index : Nat) :
    ∀ nodes : List Node,
      (∀ m ∈ subtreesAll nodes, ∀ slot, (visit slot m).Matches (visit' slot m)) →
        (traverseAll visit parent index nodes).Matches (traverseAll visit' parent index nodes)
  | [], _ => by
    rw [traverseAll, traverseAll]
    exact .pure _
  | n :: rest, h => by
    rw [subtreesAll] at h
    rw [traverseAll, traverseAll]
    apply Counting.Matches.bind
    · exact Node.traverse_matches _ n (fun m hm => h m (List.mem_append_left _ hm))
    · intro outcome
      have hrest := traverseAll_matches parent (index + 1) rest
        (fun m hm => h m (List.mem_append_right _ hm))
      exact .bind hrest fun _ => .pure _

end

end Traversals

/-! ### Other spellings -/

/-- The same name, declared in the same file however it is spelled. -/
structure Declaration.Respelled (declaration declaration' : Declaration) : Prop where
  name : declaration.name = declaration'.name
  file : declaration.file.same declaration'.file = true

/-- Two programs differ in the spelling of the files that declare functions and modules at
    most, apart from their sources. -/
structure Program.Respelled (program program' : Program) : Prop where
  calls : List.Forall₂ (fun call call' => call.1 = call'.1 ∧ call.2.Respelled call'.2)
    program.calls program'.calls
  modules : List.Forall₂ (fun specifier specifier' => specifier.1 = specifier'.1
    ∧ Option.Rel (fun file file' => file.same file' = true) specifier.2 specifier'.2)
    program.modules program'.modules

/-- Two sessions that have counted the same differ in the spelling of paths at most. -/
structure Session.Respelled (session session' : Session) : Prop where
  program : session.program.Respelled session'.program
  marker : session.marker.path.same session'.marker.path = true
  tally : session.tally = session'.tally

/-- Two files differ in the spelling of their names at most. -/
structure SourceFile.Respelled (file file' : SourceFile) : Prop where
  name : file.name.same file'.name = true
  text : file.text = file'.text
  root : file.root = file'.root

theorem Marker.declares_respelled {marker marker' : Marker} {file file' : Path}
    (hmarker : marker.path.same marker'.path = true) (hfile : file.same file' = true) :
    marker.declares file = marker'.declares file' := by
  rw [Path.same_iff] at hmarker hfile
  rw [Marker.declares, Marker.declares, Path.same, Path.same, hmarker, hfile]

/-- Tables with the same keys and related entries give related answers. -/
theorem rel_lookup {α : Type} {R : α → α → Prop} {table table' : List (NodeId × α)}
    (h : List.Forall₂ (fun entry entry' => entry.1 = entry'.1 ∧ R entry.2 entry'.2) table table')
    (id : NodeId) : Option.Rel R (table.lookup id) (table'.lookup id) := by
  induction h with
  | nil => exact .none
  | @cons entry entry' table table' first _ ih =>
    obtain ⟨key, a⟩ := entry
    obtain ⟨key', a'⟩ := entry'
    obtain ⟨rfl, hrelated⟩ := first
    rw [List.lookup_cons, List.lookup_cons]
    by_cases hid : id == key
    · simp only [hid]
      exact .some hrelated
    · simp only [hid]
      exact ih

namespace Session

variable {session session' : Session} {file file' : SourceFile}

theorem Respelled.functionOf? (h : session.Respelled session') (n : Node) :
    session.marker.functionOf? session.program n =
      session'.marker.functionOf? session'.program n := by
  have hlookup := rel_lookup h.program.calls n.id
  unfold Marker.functionOf? Program.declaration?
  generalize session.program.calls.lookup n.id = found at hlookup ⊢
  generalize session'.program.calls.lookup n.id = found' at hlookup ⊢
  rcases hlookup with ⟨hname, hfile⟩ | _
  · simp only [Marker.declares_respelled h.marker hfile, hname]
  · rfl

theorem Respelled.isImported (h : session.Respelled session') (n : Node) :
    session.marker.isImported session.program n =
      session'.marker.isImported session'.program n := by
  have hdeclared : ∀ specifier : Node,
      (session.program.declaringFile? specifier).any session.marker.declares =
        (session'.program.declaringFile? specifier).any session'.marker.declares := by
    intro specifier
    have hlookup := rel_lookup h.program.modules specifier.id
    unfold Program.declaringFile?
    generalize session.program.modules.lookup specifier.id = found at hlookup ⊢
    generalize session'.program.modules.lookup specifier.id = found' at hlookup ⊢
    rcases hlookup with (hfile | _) | _
    · exact Marker.declares_respelled h.marker hfile
    · rfl
    · rfl
  unfold Marker.isImported
  cases n.moduleSpecifier? with
  | none => rfl
  | some specifier => simp only [Option.bind_some, hdeclared]

/-! ### The literal of a call -/

/-- The limit on the length of paths does not tell the two spellings of a file apart: what a
    call of the marker module names is too long from both or from neither. -/
def LimitAlike (session : Session) (file file' : SourceFile) (n : Node) : Prop :=
  ∀ function text, session.marker.called? session.program n = some function →
    Expansion.FirstArgument n text →
      (Disk.pathLimit < (file.directory.join ⟨text⟩).spelling.utf8ByteSize ↔
        Disk.pathLimit < (file'.directory.join ⟨text⟩).spelling.utf8ByteSize)

theorem ofJson_respelled (text : String) (path path' : Path) (pattern : Option Pattern)
    (content : String) :
    (Expansion.ofJson text path pattern content).mapError Cause.kind =
      (Expansion.ofJson text path' pattern content).mapError Cause.kind := by
  unfold Expansion.ofJson
  rcases Json.decode content with fault | value
  · rfl
  · rfl

theorem ofCall_respelled (disk : Disk) (hname : file.name.same file'.name = true)
    {function : String} {n : Node}
    (hcalled : session.marker.called? session.program n = some function)
    (hlimit : LimitAlike session file file' n) (slot : Option Slot) :
    (Expansion.ofCall disk file function slot n).mapError Cause.kind =
      (Expansion.ofCall disk file' function slot n).mapError Cause.kind := by
  rcases hargument : Expansion.argument? n with _ | text
  · simp only [Expansion.ofCall, hargument]
  · have hfirst := Expansion.argument?_eq_some_iff.mp hargument
    have hdirectory : file.directory.components = file'.directory.components := by
      rw [SourceFile.components_directory, SourceFile.components_directory, Path.same_iff.mp hname]
    have hread := disk.read_join ⟨text⟩ hdirectory (hlimit function text hcalled hfirst)
    rcases hbytes : disk.read (file.directory.join ⟨text⟩) with reason | bytes
    · have hbytes' := hread.symm.trans hbytes
      rw [Expansion.ofCall_eq_error_iff.mpr (.io hfirst hbytes),
        Expansion.ofCall_eq_error_iff.mpr (.io hfirst hbytes')]
      rfl
    · have hbytes' := hread.symm.trans hbytes
      rw [Expansion.ofCall_eq_ofContent hfirst hbytes, Expansion.ofCall_eq_ofContent hfirst hbytes']
      unfold Expansion.ofContent
      split
      · rfl
      · exact ofJson_respelled text _ _ _ _
      · rfl

/-! ### Visits -/

section Visits

variable (disk : Disk) (recording recording' : Recording)

theorem visitCall_matches (hsession : session.Respelled session')
    (hname : file.name.same file'.name = true) {n : Node} (hkind : n.kind = .callExpression)
    (hlimit : LimitAlike session file file' n) (slot : Option Slot) :
    (visitCall session.program session.marker disk recording file slot n).Matches
      (visitCall session'.program session'.marker disk recording' file' slot n) := by
  unfold visitCall expand?
  rw [← hsession.functionOf? n]
  rcases hfunction : session.marker.functionOf? session.program n with _ | function
  · exact .pure _
  · have hcalled : session.marker.called? session.program n = some function := by
      rw [Marker.called?, if_pos hkind, hfunction]
    have hliteral := ofCall_respelled disk hname hcalled hlimit slot
    simp only
    generalize Expansion.ofCall disk file function slot n = result at hliteral ⊢
    generalize Expansion.ofCall disk file' function slot n = result' at hliteral ⊢
    rcases result with cause | literal <;> rcases result' with cause' | literal'
    · have hcause : cause.kind = cause'.kind := Except.error.inj hliteral
      intro tally
      exact .error hcause tally
    · cases hliteral
    · cases hliteral
    · obtain rfl := Except.ok.inj hliteral
      exact .refl _

theorem visit_matches (hsession : session.Respelled session')
    (hname : file.name.same file'.name = true) {n : Node}
    (hlimit : LimitAlike session file file' n) (slot : Option Slot) :
    (visit session.program session.marker disk recording file slot n).Matches
      (visit session'.program session'.marker disk recording' file' slot n) := by
  unfold visit Visitor.byKind
  split
  · next hkind => exact visitCall_matches disk recording recording' hsession hname hkind hlimit slot
  · unfold visitImport
    rw [hsession.isImported n]
    exact .refl _
  · exact .pure _

end Visits

theorem transform_of_run {disk : Disk} {recording : Recording} {result : Except Failure Outcome}
    {final : Tally}
    (h : (file.root.traverse (visit session.program session.marker disk
      (recording.enter (.transforming file.name)) file) none).run session.tally = (result, final)) :
    session.transform disk recording file =
      (result.map file.revise, { session with tally := final }) := by
  rw [transform, perform, transformFile, SourceFile.run_traverse file _ _ h]

theorem revise_respelled (hfile : file.Respelled file') (outcome : Outcome) :
    (file.revise outcome).file.Respelled (file'.revise outcome).file
      ∧ (file.revise outcome).untouched = (file'.revise outcome).untouched := by
  cases outcome with
  | kept => exact ⟨hfile, rfl⟩
  | changed root => exact ⟨⟨hfile.name, hfile.text, rfl⟩, rfl⟩
  | removed =>
    refine ⟨⟨hfile.name, hfile.text, ?_⟩, rfl⟩
    simp only [SourceFile.revise, SourceFile.withRoot, hfile.root]

/-- **The spelling of paths never matters.**  Let two sessions and two files differ in how the
    marker, the files that declare functions and modules, and the file itself are spelled, and
    let the limit on the length of paths not tell the spellings apart.  Then both
    transformations succeed, with the same tree, the same answer as to whether it is untouched
    and the same tally, or both fail, with the same kind of cause.  At each site of the file the
    same becomes of the node, which may be kept, changed or removed. -/
theorem transform_respelled (disk : Disk) (recording recording' : Recording)
    (hsession : session.Respelled session') (hfile : file.Respelled file')
    (hlimit : ∀ n ∈ file.root.subtrees, LimitAlike session file file' n) :
    ((∃ out out' after after', session.transform disk recording file = (.ok out, after)
        ∧ session'.transform disk recording' file' = (.ok out', after')
        ∧ out.file.Respelled out'.file ∧ out.untouched = out'.untouched
        ∧ after.Respelled after') ∨
      ∃ failure failure' after after',
        session.transform disk recording file = (.error failure, after)
        ∧ session'.transform disk recording' file' = (.error failure', after')
        ∧ failure.cause.kind = failure'.cause.kind ∧ after.Respelled after') ∧
    ∀ s ∈ file.root.sites [],
      (s.node.traverse (visit session.program session.marker disk
          (recording.enter (.transforming file.name)) file) s.slot?).Matches
        (s.node.traverse (visit session'.program session'.marker disk
          (recording'.enter (.transforming file'.name)) file') s.slot?) := by
  have hsites : ∀ s ∈ file.root.sites [],
      (s.node.traverse (visit session.program session.marker disk
          (recording.enter (.transforming file.name)) file) s.slot?).Matches
        (s.node.traverse (visit session'.program session'.marker disk
          (recording'.enter (.transforming file'.name)) file') s.slot?) := by
    intro s hs
    apply Node.traverse_matches
    intro m hm slot
    rw [← Node.map_node_sites s.above s.node] at hm
    obtain ⟨t, ht, rfl⟩ := List.mem_map.mp hm
    have hmem := Site.node_mem_subtrees (Node.sites_subset [] file.root s hs ht)
    exact visit_matches disk _ _ hsession hfile.name (hlimit _ hmem) slot
  refine ⟨?_, hsites⟩
  have hroot := hsites ⟨[], file.root⟩ (Node.self_mem_sites _ _) session.tally
  rcases hrun : (file.root.traverse (visit session.program session.marker disk
    (recording.enter (.transforming file.name)) file) none).run session.tally with ⟨result, final⟩
  rcases hrun' : (file.root.traverse (visit session'.program session'.marker disk
    (recording'.enter (.transforming file'.name)) file') none).run session.tally with
    ⟨result', final'⟩
  have htransform := transform_of_run hrun
  have htransform' : session'.transform disk recording' file' =
      (result'.map file'.revise, { session' with tally := final' }) := by
    rw [hsession.tally, hfile.root] at hrun'
    exact transform_of_run hrun'
  rw [Site.slot?, List.head?_nil, hrun, hrun'] at hroot
  cases hroot with
  | ok outcome =>
    left
    obtain ⟨hout, huntouched⟩ := revise_respelled hfile outcome
    exact ⟨_, _, _, _, htransform, htransform', hout, huntouched, hsession.program,
      hsession.marker, rfl⟩
  | error hkind =>
    right
    exact ⟨_, _, _, _, htransform, htransform', hkind, hsession.program, hsession.marker, rfl⟩

/-- The small session with all paths spelled in other ways. -/
def respelled : Session :=
  .start
    ⟨[], [(⟨10⟩, ⟨some "$INLINE_FILE", ⟨"inlay/./index.d.ts/"⟩⟩)],
      [(⟨4⟩, some ⟨"inlay//index.d.ts"⟩)]⟩
    ⟨⟨"inlay///index.d.ts/."⟩⟩

def respelledFile : SourceFile := { Small.file with name := ⟨"src/.//main.ts/"⟩ }

theorem transform_respelled_small :
    Small.session.Respelled respelled ∧ Small.file.Respelled respelledFile
    ∧ (∀ n ∈ Small.file.root.subtrees, LimitAlike Small.session Small.file respelledFile n)
    ∧ ∃ out after, respelled.transform Small.disk none respelledFile = (.ok out, after)
        ∧ out.file.root = Small.result.root ∧ after.tally = ⟨1, 1⟩ := by
  have hsession : Small.session.Respelled respelled := by
    refine ⟨⟨.cons ⟨rfl, rfl, ?_⟩ .nil, .cons ⟨rfl, .some ?_⟩ .nil⟩, ?_, rfl⟩ <;> decide
  have hfile : Small.file.Respelled respelledFile := by
    refine ⟨?_, rfl, rfl⟩
    decide
  have hlimit : ∀ n ∈ Small.file.root.subtrees,
      LimitAlike Small.session Small.file respelledFile n := by
    have hargument : ∀ n ∈ Small.file.root.subtrees,
        (Small.session.marker.called? Small.session.program n).isSome →
          Expansion.argument? n = some "hello.txt" := by decide
    intro n hn function text hcalled htext
    have hhello := hargument n hn (by rw [hcalled]; rfl)
    rw [Expansion.argument?_eq_some_iff.mpr htext] at hhello
    obtain rfl := Option.some.inj hhello
    decide
  have h : Small.session.transform Small.disk none Small.file =
      (.ok ⟨Small.result, false⟩, { Small.session with tally := ⟨1, 1⟩ }) := by rfl
  refine ⟨hsession, hfile, hlimit, ?_⟩
  rcases (transform_respelled Small.disk none none hsession hfile hlimit).1 with
    ⟨out, out', after, after', hfirst, hsecond, hout, -, hafter⟩ | ⟨failure, -, after, -, hfirst, -⟩
  · rw [h] at hfirst
    obtain ⟨hok, rfl⟩ := Prod.mk.inj hfirst
    obtain rfl := Except.ok.inj hok
    exact ⟨out', after', hsecond, hout.root.symm, hafter.tally.symm⟩
  · rw [h] at hfirst
    cases hfirst

end Session

end Transclude
