import PrivateLog.Proofs.Session.Delivery

/-!
# Output

Whichever way records take to the outside, it is the same text (`outputs_agree`): the console logger shows each of them on a
line, a logger that keeps texts shows its lines when it is drained to the console, and a drained text is these lines but for the
last line break. Where no record holds a line break, the records are the lines of the text.
-/

namespace PrivateLog

namespace Registry

/-- Hands records to the logger of a handle, one after another. -/
def finishAll (registry : Registry) (delivery : Delivery) (handle : Nat) (records : List Record) : Registry :=
  records.foldl (fun registry record => registry.finish delivery record handle) registry

variable {registry : Registry} {handle : Nat} (delivery : Delivery) (records : List Record)

/-- A logger in its own place changes nothing. -/
theorem replace_self {logger : Logger} (h : registry.logger? handle = some logger) :
    registry.replace handle logger = registry := by
  obtain ⟨hlt, hat⟩ := List.getElem?_eq_some_iff.1 h
  rw [replace, ← hat, List.set_getElem_self]

/-- The logger in a new place is the one that was put there. -/
theorem logger?_replace {logger : Logger} (h : registry.logger? handle = some logger) (logger' : Logger) :
    (registry.replace handle logger').logger? handle = some logger' := by
  obtain ⟨hlt, -⟩ := List.getElem?_eq_some_iff.1 h
  simp [logger?, replace, hlt]

/-- The last logger that is put in a place stays there. -/
theorem replace_replace (logger logger' : Logger) :
    (registry.replace handle logger).replace handle logger' = registry.replace handle logger' := by
  simp [replace, List.set_set]

/-- The console logger shows each record on a line. -/
theorem finishAll_of_console (h : registry.logger? handle = some .console) :
    registry.finishAll delivery handle records = registry.print (Logger.printed (records.map (·.text))) := by
  induction records generalizing registry with
  | nil => simp [finishAll, print, Logger.printed]
  | cons record records ih =>
    have hstep : registry.finish delivery record handle = registry.print (record.text ++ "\n") := by
      rw [finish, h]
      exact congrArg (print · _) (replace_self h)
    have hnext : (registry.print (record.text ++ "\n")).logger? handle = some .console := h
    have hrest := ih hnext
    rw [finishAll] at hrest
    rw [finishAll, List.foldl_cons, hstep, hrest, List.map_cons, Logger.printed_cons]
    simp only [print, String.append_assoc]

/-- A logger in memory keeps the text of each record. -/
theorem finishAll_of_memory {lines : List String} (h : registry.logger? handle = some (.memory lines)) :
    registry.finishAll delivery handle records = registry.replace handle (.memory (lines ++ records.map (·.text))) := by
  induction records generalizing registry lines with
  | nil => simp [finishAll, replace_self h]
  | cons record records ih =>
    have hstep : registry.finish delivery record handle = registry.replace handle (.memory (lines ++ [record.text])) := by
      rw [finish, h]
      simp [Logger.finish, print, replace]
    have hrest := ih (logger?_replace h (.memory (lines ++ [record.text])))
    rw [finishAll] at hrest
    rw [finishAll, List.foldl_cons, hstep, hrest, replace_replace, List.append_assoc]
    rfl

end Registry

namespace Session

variable {session : Session} {name : String} {handle : Nat} {lines : List String} (elapsed : String)

/-- The texts of a logger in memory that has a name. -/
theorem kept_of_memory (hname : session.handle name = .ok handle)
    (hmemory : session.registry.logger? handle = some (.memory lines)) :
    session.kept name = .ok (handle, .memory lines, lines) := by
  rw [kept, hname, Outcome.ok_bind, hmemory]
  rfl

/-- Draining a logger in memory answers with its texts, and shows nothing. -/
theorem step_drain_of_memory (hname : session.handle name = .ok handle)
    (hmemory : session.registry.logger? handle = some (.memory lines)) :
    session.step elapsed (.drain name) =
      (session.quiet.withRegistry (session.quiet.registry.replace handle (.memory [])), .ok (.lines (Logger.joined lines) 0),
        "") := by
  refine step_eq_ok ?_
  have hkept : session.quiet.kept name = .ok (handle, .memory lines, lines) := kept_of_memory hname hmemory
  rw [run, hkept]
  rfl

/-- Draining it to the console shows its texts. -/
theorem step_drainToConsole_of_memory (hname : session.handle name = .ok handle)
    (hmemory : session.registry.logger? handle = some (.memory lines)) :
    session.step elapsed (.drainToConsole name) =
      (session.quiet.withRegistry
        ((session.quiet.registry.print (Logger.printed lines)).replace handle (.memory [])), .ok (.count 0),
        Logger.printed lines) := by
  have hkept : session.quiet.kept name = .ok (handle, .memory lines, lines) := kept_of_memory hname hmemory
  have hrun : session.quiet.run elapsed (.drainToConsole name) =
      .ok (session.quiet.withRegistry
        ((session.quiet.registry.print (Logger.printed lines)).replace handle (.memory [])), .count 0) := by
    rw [run, hkept]
    rfl
  rw [step_eq_ok hrun]
  simp [Registry.print, Registry.replace, quiet, withRegistry]

/-- A logger that keeps nothing answers and shows nothing. -/
theorem step_of_empty (hname : session.handle name = .ok handle)
    (hmemory : session.registry.logger? handle = some (.memory [])) :
    (session.step elapsed (.count name)).2 = (.ok (.count 0), "") ∧
      (session.step elapsed (.drain name)).2 = (.ok (.lines "" 0), "") ∧
      (session.step elapsed (.drainToConsole name)).2 = (.ok (.count 0), "") := by
  refine ⟨?_, ?_, ?_⟩
  · have hkept : session.quiet.kept name = .ok (handle, .memory [], []) := kept_of_memory hname hmemory
    have hrun : session.quiet.run elapsed (.count name) = .ok (session.quiet, .count 0) := by
      rw [run, hkept]
      rfl
    rw [step_eq_ok hrun]
    rfl
  · rw [step_drain_of_memory elapsed hname hmemory]
    rfl
  · rw [step_drainToConsole_of_memory elapsed hname hmemory]
    rfl

/-- The outputs agree. Let `shown` be what the console logger shows when it is handed some records. A fresh logger in
memory that is handed the same records shows just this when it is drained to the console. A text drained from it is this
but for the last line break; it is empty if there are no records, and otherwise its lines are the texts of the records
if none of these holds a line break. In both cases nothing is kept, so whatever comes next shows and answers nothing. -/
theorem outputs_agree (session : Session) (name : String) (console memory : Nat) (delivery : Delivery)
    (records : List Record) (elapsed later : String) (hname : session.handle name = .ok memory)
    (hconsole : session.registry.logger? console = some .console)
    (hmemory : session.registry.logger? memory = some (.memory [])) :
    let shown := (session.quiet.registry.finishAll delivery console records).printed
    let filled := session.withRegistry (session.registry.finishAll delivery memory records)
    let printing := filled.step elapsed (.drainToConsole name)
    let draining := filled.step elapsed (.drain name)
    printing.2 = (.ok (.count 0), shown) ∧
    (∃ text, draining.2 = (.ok (.lines text 0), "") ∧
      (records ≠ [] → text ++ "\n" = shown) ∧ (records = [] → text = "") ∧
      (records ≠ [] → (∀ record ∈ records, '\n' ∉ record.text.toList) →
        text.toList.splitOn '\n' = records.map (·.text.toList))) ∧
    ∀ emptied ∈ [printing.1, draining.1],
      emptied.registry.logger? memory = some (.memory []) ∧
      (emptied.step later (.count name)).2 = (.ok (.count 0), "") ∧
      (emptied.step later (.drain name)).2 = (.ok (.lines "" 0), "") ∧
      (emptied.step later (.drainToConsole name)).2 = (.ok (.count 0), "") := by
  intro shown filled printing draining
  have hshown : shown = Logger.printed (records.map (·.text)) := by
    have hquiet : session.quiet.registry.logger? console = some .console := hconsole
    simp only [shown, Registry.finishAll_of_console delivery records hquiet]
    simp [Registry.print, quiet, withRegistry]
  have hfilled : filled.registry.logger? memory = some (.memory (records.map (·.text))) := by
    have hput := Registry.logger?_replace hmemory (.memory ([] ++ records.map (·.text)))
    rwa [← Registry.finishAll_of_memory delivery records hmemory] at hput
  have hfilledName : filled.handle name = .ok memory := hname
  have hprinting := step_drainToConsole_of_memory elapsed hfilledName hfilled
  have hdraining := step_drain_of_memory elapsed hfilledName hfilled
  refine ⟨?_, ⟨Logger.joined (records.map (·.text)), ?_, ?_, ?_, ?_⟩, ?_⟩
  · simp only [printing, hprinting, hshown]
  · simp only [draining, hdraining]
  · intro hne
    rw [hshown]
    exact Logger.joined_append_lineBreak _ (by simpa using hne)
  · rintro rfl
    rfl
  · intro hne hbreak
    rw [Logger.splitOn_joined _ (by simpa using hne) (List.forall_mem_map.2 hbreak), List.map_map]
    rfl
  · intro emptied hm
    have hemptied : emptied.handle name = .ok memory ∧ emptied.registry.logger? memory = some (.memory []) := by
      have hquiet : filled.quiet.registry.logger? memory = some (.memory (records.map (·.text))) := hfilled
      rcases List.mem_pair.1 hm with rfl | rfl
      · simp only [printing, hprinting]
        exact ⟨hname, Registry.logger?_replace hquiet (.memory [])⟩
      · simp only [draining, hdraining]
        exact ⟨hname, Registry.logger?_replace hquiet (.memory [])⟩
    exact ⟨hemptied.2, step_of_empty later hemptied.1 hemptied.2⟩

/-- Two records, of which one is empty, are drained as two lines. -/
theorem outputs_of_two_records :
    let session : Session := ⟨⟨[.console, .memory []], [0], {}, ""⟩, [("m", 1)]⟩
    let records : List Record := [⟨["a", "b"], .info⟩, ⟨[], .fault⟩]
    session.handle "m" = .ok 1 ∧ session.registry.logger? 0 = some .console ∧
      session.registry.logger? 1 = some (.memory []) ∧ records ≠ [] ∧ (∀ record ∈ records, '\n' ∉ record.text.toList) ∧
      ∃ text, ((session.withRegistry (session.registry.finishAll .awaited 1 records)).step "" (.drain "m")).2 =
          (.ok (.lines text 0), "") ∧
        text ++ "\n" = (session.quiet.registry.finishAll .awaited 0 records).printed ∧
        text.toList.splitOn '\n' = records.map (·.text.toList) := by
  intro session records
  have hname : session.handle "m" = .ok 1 := rfl
  have hne : records ≠ [] := List.cons_ne_nil _ _
  have hbreak : ∀ record ∈ records, '\n' ∉ record.text.toList := by decide
  obtain ⟨-, ⟨text, hdrain, hlast, -, hsplit⟩, -⟩ := outputs_agree session "m" 0 1 .awaited records "" "" hname rfl rfl
  exact ⟨hname, rfl, rfl, hne, hbreak, text, hdrain, hlast hne, hsplit hne hbreak⟩

end Session

end PrivateLog
