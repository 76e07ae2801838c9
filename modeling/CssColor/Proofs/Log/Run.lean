import CssColor.Log
import Mathlib.Data.List.Basic

/-! # Runs of a log

A `Command` asks a log to install a file, to take a record or to delete a file; `perform` carries it
out, and `Effect` lists what it can do. No command changes which files can be opened
(`Effect.refusal?_eq`) or replaces a sink (`Effect.sink_eq`), so a run installs the first file that
can be opened and no other. What is let through to a sink is what it takes, before and after every
command (`Aligned`, `Effect.aligned`). From then on the file holds what it held, or nothing since it
was deleted, and a line for each record that was taken (`disk_after`), whatever else is tried
meanwhile (`records_kept`). -/

namespace CssColor

/-! ### Opening files -/

/-- What is read at a path. -/
def Entry.text : Entry → String
  | file text => text
  | unreachable | directory | absent => ""

/-- Why no file can be opened at a path, if none can. -/
def Entry.refusal? : Entry → Option LogFault
  | unreachable => some .unreachable
  | directory => some .directory
  | absent | file _ => none

namespace Disk

variable {d : Disk} {path : String}

theorem append_of_refusal {f : LogFault} (h : (d path).refusal? = some f) (text : String) :
    d.append path text = .error f := by
  unfold append
  cases he : d path <;> rw [he] at h <;> cases h <;> rfl

theorem append_of_opens (h : (d path).refusal? = none) (text : String) :
    d.append path text = .ok (d.update path (.file ((d path).text ++ text))) := by
  unfold append
  cases he : d path with
  | unreachable | directory =>
    rw [he] at h
    cases h
  | absent =>
    show _ = Except.ok (d.update path (.file ("" ++ text)))
    rw [String.empty_append]
  | file old => rfl

theorem update_self (d : Disk) (path : String) (e : Entry) : d.update path e path = e := if_pos rfl

theorem update_of_ne (d : Disk) {path other : String} (h : other ≠ path) (e : Entry) :
    d.update path e other = d other := if_neg h

/-- What takes the place of a file, or of nothing, can be opened as before. -/
theorem refusal?_update (h : (d path).refusal? = none) {e : Entry} (he : e.refusal? = none)
    (other : String) : (d.update path e other).refusal? = (d other).refusal? := by
  by_cases ho : other = path
  · rw [ho, update_self, he, h]
  · rw [update_of_ne d ho]

end Disk

namespace Log

/-! ### Commands -/

/-- A call that may change a log or a file. -/
inductive Command where
  | install (path : String) (level : Level := defaultLevel)
  | add (r : Record)
  | remove (path : String)
deriving DecidableEq, Repr

/-- **The answer to a command and the log after it.** Only an attempt to install a file can fail. -/
def perform (l : Log) : Command → Except LogFault Unit × Log
  | .install path level => l.install path level
  | .add r => (.ok (), l.add r)
  | .remove path => (.ok (), l.remove path)

/-- The log after some commands. -/
def after (l : Log) (cs : List Command) : Log := cs.foldl (fun l c => (l.perform c).2) l

theorem after_cons (l : Log) (c : Command) (cs : List Command) :
    l.after (c :: cs) = (l.perform c).2.after cs := rfl

theorem after_append (l : Log) (cs ds : List Command) :
    l.after (cs ++ ds) = (l.after cs).after ds := List.foldl_append

/-- **What a command does:** the answer and the log after it, by what it meets. -/
inductive Effect (l : Log) : Command → Except LogFault Unit → Log → Prop
  | refused {path : String} {level : Level} {f : LogFault}
      (h : (l.disk path).refusal? = some f) : Effect l (.install path level) (.error f) l
  | installed {path : String} {level : Level} (h : (l.disk path).refusal? = none)
      (hs : l.sink = none) :
      Effect l (.install path level) (.ok ())
        ⟨l.disk.update path (.file (l.disk path).text), some ⟨path, level⟩, some level⟩
  /-- The file is opened, and so created, before the attempt fails. -/
  | opened {path : String} {level : Level} {s : Sink} (h : (l.disk path).refusal? = none)
      (hs : l.sink = some s) :
      Effect l (.install path level) (.error .installed)
        { l with disk := l.disk.update path (.file (l.disk path).text) }
  | written {r : Record} {s : Sink} (hp : l.passes r.level = true) (hs : l.sink = some s)
      (ht : s.takes r.level = true) (h : (l.disk s.path).refusal? = none) :
      Effect l (.add r) (.ok ())
        { l with disk := l.disk.update s.path (.file ((l.disk s.path).text ++ r.line)) }
  | dropped {r : Record} (h : l.passes r.level = true → ∀ s, l.sink = some s →
      s.takes r.level = true → (l.disk s.path).refusal? ≠ none) : Effect l (.add r) (.ok ()) l
  | deleted {path text : String} (h : l.disk path = .file text) :
      Effect l (.remove path) (.ok ()) { l with disk := l.disk.update path .absent }
  | missing {path : String} (h : ∀ text, l.disk path ≠ .file text) :
      Effect l (.remove path) (.ok ()) l

theorem setSink_of_none {l : Log} (h : l.sink = none) (s : Sink) :
    l.setSink s = (.ok (), { l with sink := some s }) := by rw [setSink, h]

theorem setSink_of_some {l : Log} {s : Sink} (h : l.sink = some s) (s' : Sink) :
    l.setSink s' = (.error .installed, l) := by rw [setSink, h]

theorem effect_install (l : Log) (path : String) (level : Level) :
    l.Effect (.install path level) (l.install path level).1 (l.install path level).2 := by
  unfold install
  cases h : (l.disk path).refusal? with
  | some f =>
    rw [Disk.append_of_refusal h]
    exact .refused h
  | none =>
    rw [Disk.append_of_opens h, String.append_empty]
    dsimp only
    cases hs : l.sink with
    | some s =>
      rw [setSink_of_some (s := s) rfl]
      exact hs ▸ .opened h hs
    | none =>
      rw [setSink_of_none rfl]
      exact .installed h hs

theorem effect_add (l : Log) (r : Record) : l.Effect (.add r) (.ok ()) (l.add r) := by
  unfold add
  split_ifs with hp
  · split
    · next s hs =>
      have hsame {s' : Sink} (hs' : l.sink = some s') : s' = s :=
        Option.some.inj (hs'.symm.trans hs)
      unfold Sink.write
      split_ifs with ht
      · cases h : (l.disk s.path).refusal? with
        | some f =>
          rw [Disk.append_of_refusal h]
          exact .dropped fun _ s' hs' _ => by simp [hsame hs', h]
        | none =>
          rw [Disk.append_of_opens h]
          exact .written hp hs ht h
      · exact .dropped fun _ s' hs' ht' => absurd (hsame hs' ▸ ht') ht
    · next hs =>
      exact .dropped fun _ s hs' => absurd (hs.symm.trans hs') (Option.some_ne_none s).symm
  · exact .dropped fun hp' => absurd hp' hp

theorem effect_remove (l : Log) (path : String) :
    l.Effect (.remove path) (.ok ()) (l.remove path) := by
  unfold remove Disk.remove
  cases h : l.disk path with
  | file text => exact .deleted h
  | unreachable | directory | absent => exact .missing fun text ht => by rw [h] at ht; cases ht

/-- Every command has one of these effects. -/
theorem effect_perform (l : Log) (c : Command) : l.Effect c (l.perform c).1 (l.perform c).2 := by
  cases c with
  | install path level => exact l.effect_install path level
  | add r => exact l.effect_add r
  | remove path => exact l.effect_remove path

end Log

/-- The sink that a command asks for, if its file can be opened. -/
def Disk.sink? (d : Disk) : Log.Command → Option Sink
  | .install path level => if (d path).refusal? = none then some ⟨path, level⟩ else none
  | .add _ | .remove _ => none

namespace Sink

variable (s : Sink)

/-- The line that a command adds to the file of a sink: that of a record no slighter than the sink's
level. -/
def line? : Log.Command → Option String
  | .add r =>
    if r.level.rank ≤ s.level.rank then
      some ("[" ++ r.level.name ++ "] " ++ r.source ++ ": " ++ r.message ++ "\n")
    else none
  | .install _ _ | .remove _ => none

/-- The lines that some commands add to the file of a sink, in their order. -/
def lines (cs : List Log.Command) : String := String.join (cs.filterMap s.line?)

/-- Whether a command opens the file of a sink, which creates it if it was deleted. -/
def opens : Log.Command → Bool
  | .install path _ => path = s.path
  | .add r => r.level.rank ≤ s.level.rank
  | .remove _ => false

variable {s}

/-- A record opens the file of a sink that takes it, and no other. -/
theorem opens_add (r : Record) : s.opens (.add r) = s.takes r.level := rfl

theorem line?_add (r : Record) :
    s.line? (.add r) = if s.takes r.level then some r.line else none := by
  simp only [line?, takes, Record.line, decide_eq_true_eq]

theorem lines_cons (c : Log.Command) (cs : List Log.Command) :
    s.lines (c :: cs) = (s.line? c).getD "" ++ s.lines cs := by
  unfold lines
  cases h : s.line? c with
  | none => rw [List.filterMap_cons_none h, Option.getD_none, String.empty_append]
  | some line => rw [List.filterMap_cons_some h, String.join_cons, Option.getD_some]

theorem line?_of_not_opens {c : Log.Command} (h : s.opens c = false) : s.line? c = none := by
  cases c with
  | add r => rw [line?_add, if_neg (ne_true_of_eq_false (opens_add r ▸ h))]
  | install path level | remove path => rfl

theorem lines_of_not_opens {cs : List Log.Command} (h : cs.any s.opens = false) :
    s.lines cs = "" := by
  have hnone : ∀ c ∈ cs, s.line? c = none := fun c hc =>
    line?_of_not_opens (Bool.eq_false_iff.mpr (List.any_eq_false.mp h c hc))
  rw [lines, List.filterMap_eq_nil_iff.mpr hnone, String.join_nil]

end Sink

namespace Log

variable {l l' : Log} {c : Command} {a : Except LogFault Unit}

/-! ### One command -/

/-- No command changes which files can be opened, or why not. -/
theorem Effect.refusal?_eq (h : l.Effect c a l') (path : String) :
    (l'.disk path).refusal? = (l.disk path).refusal? := by
  cases h with
  | refused h => rfl
  | installed h hs => exact Disk.refusal?_update h rfl path
  | opened h hs => exact Disk.refusal?_update h rfl path
  | written hp hs ht h => exact Disk.refusal?_update h rfl path
  | dropped h => rfl
  | deleted h => exact Disk.refusal?_update (by rw [h]; rfl) rfl path
  | missing h => rfl

/-- A sink stays, and the first file that can be opened becomes one. -/
theorem Effect.sink_eq (h : l.Effect c a l') : l'.sink = l.sink.or (l.disk.sink? c) := by
  cases h with
  | refused h => simp [Disk.sink?, h]
  | installed h hs => simp [Disk.sink?, h, hs]
  | opened h hs => simp [hs]
  | written hp hs ht h => simp [hs]
  | dropped h => simp [Disk.sink?]
  | deleted h => simp [Disk.sink?]
  | missing h => simp [Disk.sink?]

/-- Whether a log lets through to its sink what the sink takes, and nothing if there is none. -/
def Aligned (l : Log) : Prop := l.maxLevel = l.sink.map (·.level)

theorem Aligned.passes_eq {s : Sink} (ha : l.Aligned) (hs : l.sink = some s) (level : Level) :
    l.passes level = s.takes level := by
  rw [passes, ha, hs]
  rfl

/-- **A log lets through what its sink takes,** still after a command. Both are set at once, or
neither is. -/
theorem Effect.aligned (h : l.Effect c a l') (ha : l.Aligned) : l'.Aligned := by
  cases h with
  | installed h hs => rfl
  | refused h => exact ha
  | opened h hs => exact ha
  | written hp hs ht h => exact ha
  | dropped h => exact ha
  | deleted h => exact ha
  | missing h => exact ha

/-- The answer to an attempt to install a file. -/
theorem Effect.answer_eq {path : String} {level : Level}
    (h : l.Effect (.install path level) a l') : a = match (l.disk path).refusal? with
      | some f => .error f
      | none => if l.sink = none then .ok () else .error .installed := by
  cases h with
  | refused h => rw [h]
  | installed h hs => rw [h, if_pos hs]
  | opened h hs => rw [h, hs, if_neg (Option.some_ne_none _)]

/-- **What a command does to the file of the sink,** unless it deletes it. -/
theorem Effect.disk_eq {s : Sink} (h : l.Effect c a l') (ha : l.Aligned) (hs : l.sink = some s)
    (hopen : (l.disk s.path).refusal? = none) (hc : c ≠ .remove s.path) :
    l'.disk s.path = if s.opens c then .file ((l.disk s.path).text ++ (s.line? c).getD "")
      else l.disk s.path := by
  cases h with
  | @refused path level f h =>
    have hne : path ≠ s.path := fun heq => by rw [heq, hopen] at h; cases h
    simp [Sink.opens, hne]
  | installed h hn => rw [hs] at hn; cases hn
  | @opened path level s' h _ =>
    by_cases hp : path = s.path
    · simp [Sink.opens, Sink.line?, hp, Disk.update_self]
    · simp [Sink.opens, hp, Disk.update_of_ne _ (Ne.symm hp)]
  | @written r s' hp hs' ht h =>
    obtain rfl := Option.some.inj (hs.symm.trans hs')
    simp [Sink.opens_add, Sink.line?_add, ht, Disk.update_self]
  | @dropped r h =>
    have ht : s.takes r.level = false := Bool.eq_false_iff.mpr fun ht =>
      h ((ha.passes_eq hs r.level).trans ht) s hs ht hopen
    simp [Sink.opens_add, ht]
  | @deleted path text h =>
    have hp : s.path ≠ path := fun heq => hc (by rw [heq])
    simp [Sink.opens, Disk.update_of_ne _ hp]
  | missing h => simp [Sink.opens]

theorem disk_remove {path : String} (h : (l.disk path).refusal? = none) :
    (l.remove path).disk path = .absent := by
  unfold remove Disk.remove
  dsimp only
  cases he : l.disk path with
  | file text => exact Disk.update_self _ _ _
  | absent => exact he
  | unreachable | directory => rw [he] at h; cases h

/-! ### Runs -/

theorem refusal?_after (l : Log) (cs : List Command) (path : String) :
    ((l.after cs).disk path).refusal? = (l.disk path).refusal? := by
  induction cs generalizing l with
  | nil => rfl
  | cons c cs ih => rw [after_cons, ih, (l.effect_perform c).refusal?_eq]

theorem Aligned.after (ha : l.Aligned) (cs : List Command) : (l.after cs).Aligned := by
  induction cs generalizing l with
  | nil => exact ha
  | cons c cs ih => exact ih ((l.effect_perform c).aligned ha)

theorem sink?_after (l : Log) (cs : List Command) : (l.after cs).disk.sink? = l.disk.sink? := by
  funext c
  cases c with
  | install path level => simp only [Disk.sink?, refusal?_after]
  | add r | remove path => rfl

/-- **A run installs the first file that can be opened,** if there is no sink yet. -/
theorem sink_after (l : Log) (cs : List Command) :
    (l.after cs).sink = l.sink.or (cs.findSome? l.disk.sink?) := by
  induction cs generalizing l with
  | nil => simp [after]
  | cons c cs ih =>
    have hdisk : (l.perform c).2.disk.sink? = l.disk.sink? := sink?_after l [c]
    rw [after_cons, ih, (l.effect_perform c).sink_eq, hdisk, List.findSome?_cons, Option.or_assoc]
    cases l.disk.sink? c <;> rfl

theorem sink_after_of_sink {s : Sink} (hs : l.sink = some s) (cs : List Command) :
    (l.after cs).sink = some s := by
  rw [sink_after, hs, Option.some_or]

/-- **The file of the sink after a run that does not delete it:** it grows by the lines of the
records that are taken, and is there if it was or something opened it. -/
theorem disk_after {s : Sink} (ha : l.Aligned) (hs : l.sink = some s)
    (hopen : (l.disk s.path).refusal? = none) {cs : List Command}
    (hcs : Command.remove s.path ∉ cs) :
    (l.after cs).disk s.path = if cs.any s.opens then .file ((l.disk s.path).text ++ s.lines cs)
      else l.disk s.path := by
  induction cs generalizing l with
  | nil => rfl
  | cons c cs ih =>
    obtain ⟨hc, hcs⟩ := not_or.mp (mt List.mem_cons.mpr hcs)
    have he := l.effect_perform c
    have hsink : (l.perform c).2.sink = some s := by rw [he.sink_eq, hs, Option.some_or]
    rw [after_cons, ih (he.aligned ha) hsink ((he.refusal?_eq _).trans hopen) hcs,
      he.disk_eq ha hs hopen (Ne.symm hc), List.any_cons, Sink.lines_cons]
    cases hfirst : s.opens c with
    | false => simp [Sink.line?_of_not_opens hfirst]
    | true =>
      cases hrest : cs.any s.opens with
      | false => simp [Sink.lines_of_not_opens hrest]
      | true => simp [Entry.text, String.append_assoc]

/-- A file that is there stays so, and holds what it held with the lines behind it. -/
theorem disk_after_of_file {s : Sink} {text : String} (ha : l.Aligned) (hs : l.sink = some s)
    (hfile : l.disk s.path = .file text) {cs : List Command} (hcs : Command.remove s.path ∉ cs) :
    (l.after cs).disk s.path = .file (text ++ s.lines cs) := by
  rw [disk_after ha hs (by rw [hfile]; rfl) hcs, hfile]
  cases hany : cs.any s.opens with
  | true => rfl
  | false => simp [Sink.lines_of_not_opens hany]

/-- After it was deleted, the file begins anew with the next command that opens it. -/
theorem disk_after_remove {s : Sink} (ha : l.Aligned) (hs : l.sink = some s)
    (hopen : (l.disk s.path).refusal? = none) {cs : List Command}
    (hcs : Command.remove s.path ∉ cs) : ((l.remove s.path).after cs).disk s.path
      = if cs.any s.opens then .file (s.lines cs) else .absent := by
  have ha' : (l.remove s.path).Aligned := (l.effect_remove s.path).aligned ha
  have hsink : (l.remove s.path).sink = some s := hs
  have habsent := disk_remove hopen
  have hopen' : ((l.remove s.path).disk s.path).refusal? = none := by rw [habsent]; rfl
  rw [disk_after ha' hsink hopen' hcs, habsent, show Entry.absent.text = "" from rfl,
    String.empty_append]

/-! ### Runs from the start -/

/-- The log that some commands lead to, if no file is installed at first. -/
def run (d : Disk) (cs : List Command) : Log := after { disk := d } cs

variable {d : Disk} {cs : List Command}

theorem sink_run (d : Disk) (cs : List Command) : (run d cs).sink = cs.findSome? d.sink? := by
  rw [run, sink_after, Option.none_or]

theorem aligned_run (d : Disk) (cs : List Command) : (run d cs).Aligned :=
  (show Aligned { disk := d } from rfl).after cs

theorem refusal?_run (d : Disk) (cs : List Command) (path : String) :
    ((run d cs).disk path).refusal? = (d path).refusal? := refusal?_after _ cs path

theorem run_append (d : Disk) (cs ds : List Command) : run d (cs ++ ds) = (run d cs).after ds :=
  after_append _ cs ds

/-- The first file that can be opened is installed as it is. -/
theorem installed_run {path : String} (level : Level) (hnone : cs.findSome? d.sink? = none)
    (hopen : (d path).refusal? = none) : (run d (cs ++ [.install path level])).sink
        = some ⟨path, level⟩ ∧
      (run d (cs ++ [.install path level])).disk path = .file ((run d cs).disk path).text := by
  have he := (run d cs).effect_install path level
  rw [run_append]
  show ((run d cs).install path level).2.sink = _ ∧ ((run d cs).install path level).2.disk path = _
  generalize ((run d cs).install path level).1 = a, ((run d cs).install path level).2 = l at he
  cases he with
  | refused h => rw [refusal?_run, hopen] at h; cases h
  | installed h hs => exact ⟨rfl, Disk.update_self _ _ _⟩
  | opened h hs => rw [sink_run, hnone] at hs; cases hs

/-- **The first file that can be opened is installed, and no record is lost.** Whatever is on the
disk, after any commands records go to the first file among those to install that can be opened, by
the level it was to be installed with, and those up to this level are let through; until there is
such a file, none is. Until then an attempt to install one would succeed, and ever after it fails
and changes neither the sink nor the level; one that cannot be opened is refused at any time. The
file holds what it held when it was installed and a line for each record since then of a level that
is taken, in their order. If it was deleted since, it holds the lines since it was last deleted, and
is there as soon as something opens it. -/
theorem records_kept (d : Disk) (cs : List Command) :
    (run d cs).sink = cs.findSome? d.sink? ∧
    (run d cs).maxLevel = (cs.findSome? d.sink?).map (·.level) ∧
    (∀ path level, ((run d cs).install path level).1 = match (d path).refusal? with
      | some f => .error f
      | none => if cs.findSome? d.sink? = none then .ok () else .error .installed) ∧
    (∀ s, (run d cs).sink = some s → ∀ more,
      (run d (cs ++ more)).sink = some s ∧ (run d (cs ++ more)).maxLevel = some s.level) ∧
    ∀ earlier path level later, cs = earlier ++ .install path level :: later →
      earlier.findSome? d.sink? = none → (d path).refusal? = none →
        (.remove path ∉ later → (run d cs).disk path
          = .file (((run d earlier).disk path).text ++ Sink.lines ⟨path, level⟩ later)) ∧
        ∀ before since, later = before ++ .remove path :: since → .remove path ∉ since →
          (run d cs).disk path = if since.any (Sink.opens ⟨path, level⟩)
            then .file (Sink.lines ⟨path, level⟩ since) else .absent := by
  have hmax : (run d cs).maxLevel = (cs.findSome? d.sink?).map (·.level) :=
    sink_run d cs ▸ aligned_run d cs
  refine ⟨sink_run d cs, hmax, fun path level => ?_, fun s hs more => ?_, ?_⟩
  · rw [((run d cs).effect_install path level).answer_eq, refusal?_run, sink_run]
  · have hsink : (run d (cs ++ more)).sink = some s := by rw [run_append, sink_after_of_sink hs]
    exact ⟨hsink, by rw [aligned_run d (cs ++ more), hsink, Option.map_some]⟩
  · rintro earlier path level later rfl hnone hopen
    obtain ⟨hsink, hfile⟩ := installed_run level hnone hopen
    have halign := aligned_run d (earlier ++ [.install path level])
    rw [List.append_cons, run_append]
    constructor
    · exact disk_after_of_file (s := ⟨path, level⟩) halign hsink hfile
    · rintro before since rfl hsince
      rw [after_append, after_cons]
      refine disk_after_remove (s := ⟨path, level⟩) (halign.after before)
        (sink_after_of_sink hsink before) ?_ hsince
      rw [refusal?_after, hfile]
      rfl

/-- A directory, and a file that something was written to before. -/
def usedDisk : Disk
  | "logs" => .directory
  | "old.log" => .file "[INFO] session: opened\n"
  | _ => .absent

/-- Commands before and after the one that installs the second of its files. -/
def earlyCommands : List Command := [.install "logs", .add ⟨.error, "session", "early"⟩]

def lateCommands : List Command := [.install "new.log" .trace, .add ⟨.info, "link", "slight"⟩,
  .add ⟨.warn, "link", "no color"⟩]

/-- A deletion, and a record behind it that is taken. -/
def lastCommands : List Command :=
  [.remove "old.log", .add ⟨.debug, "link", "slight"⟩, .add ⟨.error, "session", "late"⟩]

/-- A directory is refused, a second file fails, and slight records are dropped; then the file is
deleted, and the next record that is taken creates it. -/
theorem records_kept_after_deletion :
    ((run usedDisk (earlyCommands ++ .install "old.log" .warn :: lateCommands)).install
        "new.log" .trace).1 = .error .installed ∧
      (run usedDisk (earlyCommands ++ .install "old.log" .warn :: lateCommands)).disk "old.log"
        = .file "[INFO] session: opened\n[WARN] link: no color\n" ∧
      (run usedDisk (earlyCommands ++ .install "old.log" .warn ::
        (lateCommands ++ lastCommands))).sink = some ⟨"old.log", .warn⟩ ∧
      (run usedDisk (earlyCommands ++ .install "old.log" .warn ::
        (lateCommands ++ lastCommands))).maxLevel = some .warn ∧
      (run usedDisk (earlyCommands ++ .install "old.log" .warn ::
        (lateCommands ++ lastCommands))).disk "old.log" = .file "[ERROR] session: late\n" := by
  obtain ⟨-, -, hanswer, -, hfile⟩ :=
    records_kept usedDisk (earlyCommands ++ .install "old.log" .warn :: lateCommands)
  obtain ⟨hkept, -⟩ := hfile earlyCommands "old.log" .warn _ rfl (by decide) (by decide)
  obtain ⟨hsink, hmax, -, -, hfile'⟩ := records_kept usedDisk
    (earlyCommands ++ .install "old.log" .warn :: (lateCommands ++ lastCommands))
  obtain ⟨-, hdeleted⟩ := hfile' earlyCommands "old.log" .warn _ rfl (by decide) (by decide)
  refine ⟨(hanswer _ _).trans (by decide), (hkept (by decide)).trans (by decide),
    hsink.trans (by decide), hmax.trans (by decide),
    (hdeleted _ _ rfl (by decide)).trans (by decide)⟩

end Log

end CssColor
