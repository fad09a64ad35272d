import Mathlib.Data.List.Basic
import Mathlib.Data.List.TakeWhile
import Thumbnailer.Proofs.Session.Courses

/-!
# Terminal records

The record that a session ends with is known by its level and its text. Nothing else that is logged while a
program runs looks like it: a progress report has four spaces, and those stand elsewhere.
-/

namespace Thumbnailer

/-! ## Progress reports hold few spaces -/

namespace Progress

/-- No value holds a space. -/
structure Spaceless (p : Progress) : Prop where
  state : ' ' ∉ p.state.toList
  time : ' ' ∉ p.time.toList
  speed : ' ' ∉ p.speed.toList

theorem Spaceless.start : Spaceless {} := ⟨by decide, by decide, by decide⟩

theorem stateIn?_spaceless {line : List Char} {v : String} (h : stateIn? line = some v) : ' ' ∉ v.toList := by
  intro hmem
  exact absurd ((stateIn?_eq_some_iff.1 h).inClass ' ' hmem) (by decide)

theorem valueIn?_spaceless {mark : String} {line : List Char} {v : String} (h : valueIn? mark line = some v) :
    ' ' ∉ v.toList := by
  obtain ⟨run, hrun, rfl⟩ := valueIn?_eq_some_iff.1 h
  intro hmem
  exact absurd (hrun.inClass ' ' (Text.mem_of_mem_trimChars (by simpa using hmem))) (by decide)

theorem not_mem_getD {found : Option String} {old : String} {c : Char}
    (hfound : ∀ v, found = some v → c ∉ v.toList) (hold : c ∉ old.toList) : c ∉ (found.getD old).toList := by
  cases found with
  | none => exact hold
  | some v => exact hfound v rfl

theorem Spaceless.update {p : Progress} (h : p.Spaceless) (line : List Char) : (p.update line).Spaceless where
  state := not_mem_getD (fun _ => stateIn?_spaceless) h.state
  time := not_mem_getD (fun _ => valueIn?_spaceless) h.time
  speed := not_mem_getD (fun _ => valueIn?_spaceless) h.speed

theorem answers_spaceless {p : Progress} (h : p.Spaceless) (lines : List (List Char)) :
    ∀ q, some q ∈ p.answers lines → q.Spaceless := by
  induction lines generalizing p with
  | nil => simp [answers]
  | cons line rest ih =>
    intro q hq
    rw [answers, List.mem_cons, feed_eq] at hq
    obtain hfirst | hrest := hq
    · split at hfirst
      · exact Option.some.inj hfirst ▸ h.update line
      · cases hfirst
    · exact ih (h.update line) q hrest

theorem reports_spaceless {text : List Char} {p : Progress} (h : p ∈ reports text) : p.Spaceless := by
  obtain ⟨answer, hanswer, rfl⟩ := List.mem_filterMap.1 h
  exact answers_spaceless .start _ p hanswer

end Progress

namespace Session

variable (s : Session)

/-! ## Terminal records -/

/-- What the last record of a program that ran starts with, at each level that it can have. -/
def terminalStart? : Level → Option String
  | .info => some (s.name ++ " command finished in ")
  | .error => some (s.name ++ " run failed (exit code ")
  | _ => none

/-- The level of a record that a session ends with. -/
def terminal? : Event → Option Level
  | .log r =>
    if (s.terminalStart? r.level).any fun start => start.toList.isPrefixOf r.message.toList then some r.level
    else none
  | _ => none

theorem terminal?_record_eq_none {level : Level} {message : String} {cause : Option String}
    (h : ∀ start, s.terminalStart? level = some start → ¬start.toList <+: message.toList) :
    s.terminal? (s.record level message cause) = none := by
  refine if_neg fun hany => ?_
  cases hstart : s.terminalStart? level with
  | none => simp [hstart] at hany
  | some start => exact h start hstart (List.isPrefixOf_iff_prefix.1 (by simpa [hstart] using hany))

theorem terminal?_record_eq_some {level : Level} {start message : String} {cause : Option String}
    (hstart : s.terminalStart? level = some start) (h : start.toList <+: message.toList) :
    s.terminal? (s.record level message cause) = some level := by
  refine if_pos ?_
  show (s.terminalStart? level).any _ = true
  rw [hstart]
  exact List.isPrefixOf_iff_prefix.2 h

theorem finalMessage_of_success {o : Outcome} (h : o.success = true) :
    (s.name ++ " command finished in ").toList <+: (s.finalMessage o).toList := by
  rw [finalMessage, if_pos h]
  exact ⟨(o.duration.fixed 3 ++ "s").toList, by simp [ToString.toString]⟩

theorem finalMessage_of_failure {o : Outcome} (h : o.success = false) :
    (s.name ++ " run failed (exit code ").toList <+: (s.finalMessage o).toList := by
  rw [finalMessage, h]
  exact ⟨_, by simp [ToString.toString]; rfl⟩

theorem terminal?_final (o : Outcome) :
    s.terminal? (s.record (finalLevel o) (s.finalMessage o)) = some (finalLevel o) := by
  cases h : o.success with
  | true =>
    have hlevel : finalLevel o = .info := if_pos h
    rw [hlevel]
    exact s.terminal?_record_eq_some rfl (s.finalMessage_of_success h)
  | false =>
    have hlevel : finalLevel o = .error := by simp [finalLevel, h]
    rw [hlevel]
    exact s.terminal?_record_eq_some rfl (s.finalMessage_of_failure h)

theorem progressMessage_toList (p : Progress) : (progressMessage p).toList =
    "Progress update: progress=".toList ++ p.state.toList ++ " time=".toList ++ p.time.toList ++ " speed=".toList ++
      p.speed.toList := by
  have hmessage : progressMessage p =
      "Progress update: progress=" ++ p.state ++ " time=" ++ p.time ++ " speed=" ++ p.speed := rfl
  simp only [hmessage, String.toList_append]

/-- A progress report has two spaces before the first value and one before each other one. -/
theorem not_prefix_progress {p : Progress} (h : p.Spaceless) :
    ¬(s.name ++ " command finished in ").toList <+: (progressMessage p).toList := by
  rw [progressMessage_toList]
  intro hprefix
  have hcount := hprefix.sublist.count_le ' '
  have hspaces : s.name.toList.count ' ' + 4 ≤ 4 := by
    simpa [List.count_append, List.count_eq_zero_of_not_mem h.state,
      List.count_eq_zero_of_not_mem h.time, List.count_eq_zero_of_not_mem h.speed] using hcount
  have hname : ' ' ∉ s.name.toList := List.count_eq_zero.1 (by omega)
  obtain ⟨rest, hrest⟩ := hprefix
  -- The first space of the record stands behind its first word, so the second words would be the same.
  have hwords : ∃ more, s.name.toList ++ ' ' :: ("command finished in ".toList ++ rest) =
      "Progress".toList ++ ' ' :: ("update: progress=".toList ++ more) :=
    ⟨_, by simpa using hrest⟩
  obtain ⟨more, hwords⟩ := hwords
  have hskip : ∀ c ∈ s.name.toList, (c != ' ') = true := by
    intro c hc
    simpa using fun h : c = ' ' => hname (h ▸ hc)
  have hskip' : ∀ c ∈ "Progress".toList, (c != ' ') = true := List.all_eq_true.1 (by decide)
  have hsecond := congrArg (List.dropWhile (· != ' ')) hwords
  rw [List.dropWhile_append_of_pos hskip, List.dropWhile_append_of_pos hskip',
    List.dropWhile_cons_of_neg (by decide), List.dropWhile_cons_of_neg (by decide)] at hsecond
  have hletter := congrArg List.head? (List.tail_eq_of_cons_eq hsecond)
  rw [List.head?_append_of_ne_nil _ (by decide), List.head?_append_of_ne_nil _ (by decide)] at hletter
  exact absurd hletter (by decide)

theorem not_prefix_callback : ¬(s.name ++ " run failed (exit code ").toList <+: "Progress callback failed".toList := by
  intro hprefix
  have hcount := hprefix.sublist.count_le ' '
  simp [List.count_append] at hcount

theorem not_prefix_start (message : String) :
    ¬(s.name ++ " run failed (exit code ").toList <+: s!"{s.name} start failed: {message}".toList := by
  intro hprefix
  simp [ToString.toString] at hprefix

/-! ## Nothing else is a terminal record -/

theorem tell_terminal? {ps : List Progress} (h : ∀ p ∈ ps, p.Spaceless) (n : Nat) :
    (s.tell n ps).All (s.terminal? · = none) := by
  refine s.tell_all (fun p hp n => s.report_all n ?_ rfl fun cause => ?_) n
  · exact s.terminal?_record_eq_none fun _ hstart => Option.some.inj hstart ▸ s.not_prefix_progress (h p hp)
  · exact s.terminal?_record_eq_none fun _ hstart => Option.some.inj hstart ▸ s.not_prefix_callback

theorem reports_spaceless (child : Child) : ∀ p ∈ s.reports child, p.Spaceless := by
  unfold reports
  split
  · exact fun p => Progress.reports_spaceless
  · exact List.forall_mem_nil _

theorem launch_terminal? (child : Child) : (s.launch child).All (s.terminal? · = none) := by
  refine .bind (s.log_all (s.terminal?_record_eq_none fun _ hstart => nomatch hstart)) fun _ =>
    .bind (.seen rfl) fun _ => ?_
  split
  · exact .broken _
  · exact .pure _

end Session

end Thumbnailer
