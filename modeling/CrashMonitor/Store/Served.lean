import CrashMonitor.Lib.Expand
import CrashMonitor.Store.State

/-!
# A system that serves the store

A file system whose calls succeed wherever the state allows it, as long as they
keep to names it knows. What it answers is a step of the store, so every
program of the store has a complete run from every state of such a system.
-/

namespace CrashMonitor.Store

open Interleave Function List

/-- Only known names occur, and no process has ended. -/
structure Supported (known : List String) (s : World) : Prop where
  directories : ∀ root name, (s.names root name).isSome = true → name ∈ known
  files : ∀ d name, (s.files d name).isSome = true → name ∈ known
  alive : s.alive = fun _ => true

/-- One directory with its files, and the transactions on it. -/
def World.staged (root : Path) (name : String) (files : List (String × Bytes))
    (cores : Token → Option TransactionCore) : World where
  names r n := if r = root ∧ n = name then some 1 else none
  files d n := if d = 1 then files.lookup n else none
  locks _ := none
  cores := cores
  retention _ := none
  leases _ _ _ := false
  nextInode := 2
  nextSerial := 1
  alive _ := true

theorem supported_staged {known root name files cores} (hname : name ∈ known)
    (hfiles : ∀ file ∈ files, file.1 ∈ known) :
    Supported known (.staged root name files cores) where
  directories := by
    intro r n hsome
    simp only [World.staged] at hsome
    split at hsome
    · next h => exact h.2 ▸ hname
    · cases hsome
  files := by
    intro d n hsome
    simp only [World.staged] at hsome
    split at hsome
    · obtain ⟨data, hdata⟩ := Option.isSome_iff_exists.mp hsome
      obtain ⟨before, after, rfl, -⟩ := lookup_eq_some_iff.mp hdata
      exact hfiles (n, data) (by simp)
    · cases hsome
  alive := rfl

def found {α : Type} : Option α → Except String α
  | some a => .ok a
  | none => .error "missing"

section Serve

variable (known : List String)

/-- The answer to a call. With `broken` a published entry cannot be looked at. -/
def serve (broken : Bool) (caller : Caller) (s : World) : (o : StoreOp) → o.Res × World
  | .uuid => ("a", s)
  | .checkpoint | .probe _ | .verifyPrivate _ => (.ok (), s)
  | .openDirectory root name => (found (s.names root name), s)
  | .inspectEntry root name => (.ok (s.names root name), s)
  | .matchesHandle root name d => (.ok (decide (s.names root name = some d)), s)
  | .verifyEntry root name d =>
    (if broken then .error "unreadable" else .ok (decide (s.names root name = some d)), s)
  | .renameDirectory root name root' name' =>
    match s.names root' name', s.names root name with
    | none, some d =>
      if name' ∈ known then (.ok (), s.moveDirectory root name root' name' d)
      else (.error "refused", s)
    | _, _ => (.error "refused", s)
  | .listRoot root =>
    (.ok ((known.filter fun name => (s.names root name).isSome).map (·, .directory)), s)
  | .createFile d name =>
    if s.files d name = none ∧ isFlat name = true ∧ name ∈ known then
      (.ok (), s.setFile d name (some []))
    else (.error "refused", s)
  | .writeFile d name data =>
    if (s.files d name).isSome then (.ok (), s.setFile d name (some data))
    else (.error "refused", s)
  | .openFile d name => if (s.files d name).isSome then (.ok (), s) else (.error "missing", s)
  | .renameFile d name d' name' =>
    match s.files d name with
    | some data =>
      if s.files d' name' = none ∧ isFlat name' = true ∧ name' ∈ known then
        (.ok (), (s.setFile d name none).setFile d' name' (some data))
      else (.error "refused", s)
    | none => (.error "missing", s)
  | .matchesFile d name | .verifyFile d name => (.ok (s.files d name).isSome, s)
  | .listDirectory root directory =>
    (found ((s.names root directory).map fun d =>
      known.filter fun name => (s.files d name).isSome), s)
  | .fileSize root directory name =>
    (found (((s.names root directory).bind (s.files · name)).map List.length), s)
  | .readFile root directory name => (found ((s.names root directory).map (s.files · name)), s)
  | .lockDirectory d =>
    if s.locks d = none then
      (.ok (some ⟨caller.proc, s.nextSerial⟩),
        (s.setLock d (some ⟨caller.proc, s.nextSerial⟩)).takeSerial)
    else (.ok none, s)
  | .unlockDirectory t d => ((), if s.locks d = some t then s.setLock d none else s)
  | .releaseRetention t root =>
    ((), if s.retention root = some t then s.setRetention root none else s)
  | .registerLease root id => ((), s.setLease caller.proc root id true)
  | .isLeased root id => (s.leases caller.proc root id, s)
  | .durabilityWarnings t => (((s.cores t).map (·.durabilityWarnings)).getD [], s)
  | .beginCommit t =>
    match s.cores t with
    | some core =>
      if core.state = .opened ∧ core.activeOperations = 0 then
        (.ok ⟨core.context, core.artifacts, core.destinationRoot, s.nextSerial⟩,
          (s.modifyCore t fun core => { core with
            state := .preparing
            borrowers := s.nextSerial :: core.borrowers }).takeSerial)
      else (.error (core.state.refusal "report transaction still has an active operation"), s)
    | none => (.error "no transaction", s)
  | .setPrepared t => ((), s.modifyCore t fun core => { core with state := .prepared })
  | .setCommitted t report =>
    ((), s.modifyCore t fun core => { core with
      state := .committed
      committedReport := some report
      publicationLease := some (report.root, report.reportId) })
  | .setReport t report => ((), s.modifyCore t fun core => { core with
      committedReport := some report })
  | .returnBorrow t borrow => ((), s.modifyCore t fun core => { core with
      borrowers := core.borrowers.filter (· ≠ borrow) })
  | .committedReport t => ((s.cores t).bind (·.committedReport), s)
  | o => (o.unasked, s)

end Serve

/-! ## It answers as the store's steps allow -/

theorem answers_found {α : Type} {s P} {o : Option α}
    (h : ∀ a, o = some a → P a) : Answers s s P (found o) := by
  cases o with
  | none => rfl
  | some a => exact h a rfl

section Supported

variable {known : List String} {s : World}

theorem Supported.setFile (h : Supported known s) {d name data}
    (hname : data.isSome = true → name ∈ known) : Supported known (s.setFile d name data) := by
  refine ⟨h.directories, ?_, h.alive⟩
  intro d' name' hsome
  simp only [World.setFile] at hsome
  by_cases hd : d' = d
  · subst hd
    rw [update_self] at hsome
    by_cases hsame : name' = name
    · subst hsame
      rw [update_self] at hsome
      exact hname hsome
    · rw [update_of_ne hsame] at hsome
      exact h.files _ _ hsome
  · rw [update_of_ne hd] at hsome
    exact h.files _ _ hsome

theorem Supported.setName (h : Supported known s) {root name entry}
    (hname : entry.isSome = true → name ∈ known) : Supported known (s.setName root name entry) := by
  refine ⟨?_, h.files, h.alive⟩
  intro root' name' hsome
  simp only [World.setName] at hsome
  split at hsome
  · next hsame =>
      rw [hsame.2]
      exact hname hsome
  · exact h.directories _ _ hsome

/-- Every answer is a step of the store and leaves such a system. -/
theorem serve_effect (hknown : known.Nodup) (hs : Supported known s) (broken : Bool)
    (caller : Caller) (o : StoreOp) :
    effect caller s o (serve known broken caller s o).1 (serve known broken caller s o).2 ∧
      Supported known (serve known broken caller s o).2 := by
  cases o with
  | openDirectory root name => exact ⟨answers_found fun d hd => ⟨hd, rfl⟩, hs⟩
  | inspectEntry => exact ⟨⟨rfl, rfl⟩, hs⟩
  | matchesHandle => exact ⟨⟨decide_eq_true_iff, rfl⟩, hs⟩
  | verifyEntry root name d =>
    refine ⟨?_, hs⟩
    cases broken with
    | true => rfl
    | false => exact ⟨decide_eq_true_iff, rfl⟩
  | renameDirectory root name root' name' =>
    simp only [serve]
    split
    · next d hfree hname =>
      split
      · next hmem =>
        exact ⟨⟨hfree, d, hname, rfl⟩, (hs.setName (by simp)).setName fun _ => hmem⟩
      · exact ⟨rfl, hs⟩
    · exact ⟨rfl, hs⟩
  | listRoot root =>
    refine ⟨⟨?_, ?_, rfl⟩, hs⟩
    · rw [map_map, show Prod.fst ∘ (·, EntryKind.directory) = (id : String → String) from rfl,
        map_id]
      exact hknown.filter _
    · intro name
      simp only [mem_map, mem_filter, Prod.mk.injEq, and_true, exists_eq_right]
      exact ⟨fun h => ⟨hs.directories root name h, h⟩, And.right⟩
  | createFile d name =>
    simp only [serve]
    split
    · next h => exact ⟨⟨h.1, h.2.1, rfl⟩, hs.setFile fun _ => h.2.2⟩
    · exact ⟨rfl, hs⟩
  | writeFile d name data =>
    simp only [serve]
    split
    · next h => exact ⟨⟨h, rfl⟩, hs.setFile fun _ => hs.files d name h⟩
    · exact ⟨.inl rfl, hs⟩
  | openFile d name =>
    simp only [serve]
    split
    · next h => exact ⟨⟨h, rfl⟩, hs⟩
    · exact ⟨rfl, hs⟩
  | renameFile d name d' name' =>
    simp only [serve]
    split
    · next data hdata =>
      split
      · next h =>
        exact ⟨⟨h.1, h.2.1, data, hdata, rfl⟩, (hs.setFile (by simp)).setFile fun _ => h.2.2⟩
      · exact ⟨rfl, hs⟩
    · exact ⟨rfl, hs⟩
  | matchesFile | verifyFile => exact ⟨⟨Iff.rfl, rfl⟩, hs⟩
  | listDirectory root directory =>
    refine ⟨answers_found fun listing hlisting => ?_, hs⟩
    obtain ⟨d, hd, rfl⟩ := Option.map_eq_some_iff.mp hlisting
    refine ⟨d, hd, hknown.filter _, fun name => ?_, rfl⟩
    rw [mem_filter]
    exact ⟨fun h => ⟨hs.files d name h, h⟩, And.right⟩
  | fileSize root directory name =>
    refine ⟨answers_found fun size hsize => ?_, hs⟩
    obtain ⟨data, hdata, rfl⟩ := Option.map_eq_some_iff.mp hsize
    obtain ⟨d, hd, hfile⟩ := Option.bind_eq_some_iff.mp hdata
    exact ⟨d, data, hd, hfile, rfl, rfl⟩
  | readFile root directory name =>
    refine ⟨answers_found fun data hdata => ?_, hs⟩
    obtain ⟨d, hd, rfl⟩ := Option.map_eq_some_iff.mp hdata
    exact ⟨d, hd, rfl, rfl⟩
  | lockDirectory d =>
    simp only [serve]
    split
    · next hfree => exact ⟨⟨hfree, rfl, rfl⟩, hs.directories, hs.files, hs.alive⟩
    · next hheld => exact ⟨⟨hheld, rfl⟩, hs⟩
  | unlockDirectory | releaseRetention =>
    refine ⟨rfl, ?_⟩
    simp only [serve]
    split <;> exact ⟨hs.directories, hs.files, hs.alive⟩
  | beginCommit t =>
    simp only [serve, effect]
    cases s.cores t with
    | none => exact ⟨⟨⟨_, rfl⟩, rfl⟩, hs⟩
    | some core =>
      dsimp only
      split
      · exact ⟨⟨rfl, rfl⟩, hs.directories, hs.files, hs.alive⟩
      · exact ⟨⟨rfl, rfl⟩, hs⟩
  | isLeased | durabilityWarnings | committedReport => exact ⟨⟨rfl, rfl⟩, hs⟩
  | registerLease | setPrepared | setCommitted | setReport | returnBorrow =>
    exact ⟨rfl, hs.directories, hs.files, hs.alive⟩
  | ensureDirectory => exact ⟨.inl rfl, hs⟩
  | _ => exact ⟨rfl, hs⟩

end Supported

/-- The states of such a system. -/
abbrev ServedWorld (known : List String) := { s : World // Supported known s }

section Run

variable {known : List String} (hknown : known.Nodup) (broken : Bool)

def served (o : storeSig.Op) (s : ServedWorld known) : storeSig.Res o × ServedWorld known :=
  ((serve known broken o.1 s.1 o.2).1,
    ⟨(serve known broken o.1 s.1 o.2).2, (serve_effect hknown s.2 broken o.1 o.2).2⟩)

/-- Every program of the store runs to its end on such a system. -/
theorem run_served {α : Type} (p : Prog storeSig α) (s : ServedWorld known) :
    Run (storeStep fun _ _ _ _ => True) p s.1 (p.exec (served hknown broken) s).1
      (p.exec (served hknown broken) s).2.1 := by
  induction p generalizing s with
  | ret a => exact .ret a s.1
  | call o k ih =>
    have heffect := (serve_effect hknown s.2 broken o.1 o.2).1
    exact .call ⟨congrFun s.2.alive o.1.proc, trivial, heffect⟩ (ih _ (served hknown broken o s).2)

end Run

end CrashMonitor.Store
