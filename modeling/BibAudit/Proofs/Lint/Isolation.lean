/-
# BibAudit.Proofs.Lint.Isolation — a check that fails leaves one complaint, and touches nothing else.

Only the check for local copies can fail, and it fails on an entry exactly if there is nowhere to
look or the lookup of its key goes wrong.  The complaint about that stands in the place of what the
check would have found there.  Nothing else depends on how lookups go: other checks do not look
anything up, and an entry is judged by the lookup of its own key.  A session never runs the check
without a directory to look into.

A report shows what a run adds among the complaints from reading, and cuts the list.  What is added is
therefore taken from the report of the same run without complaints from reading and with room for all.
-/
import BibAudit.Proofs.Bib.Merge
import BibAudit.Proofs.Lint.Truncation
import Mathlib.Data.List.Nodup

namespace BibAudit

/-- The check gives findings, whatever it is run on. -/
def CheckBody.NeverFails : CheckBody → Prop
  | .entry run => ∀ e ctx, ∃ cs, run e ctx = .ok cs
  | .collection run => ∀ ctx, ∃ cs, run ctx = .ok cs
  | .window run => ∀ m d words, ∃ cs, (run m d words).1 = .ok cs

/-- The complaint is about a check that failed. -/
def Complaint.isFailure (c : Complaint) : Bool :=
  c.check == Complaint.internalError

/-- Why the local copy of the work with this key cannot be asked for; none if it can. -/
def lookupError? (probe : Option Probe) (key : String) : Option CheckError :=
  match probe with
  | none => some (.missingInput "local copy directory")
  | some probe =>
    match probe key with
    | .error err => some err
    | .ok _ => none

/-- The complaint that the check for local copies failed on the entry: at its header, with its key. -/
def Entry.lookupFailure (e : Entry) (err : CheckError) : Complaint where
  location := e.location
  key := some e.key
  check := Complaint.internalError
  message := s!"Check \"check-local-copies\" failed: {err.message}"
  related := []

namespace Lint

variable {policy : Policy} {ctx : Context} {documents : List Document} {check : Check}
  {c : Complaint} {e : Entry} {input : LintInput} {probe probe' : Option Probe} {key : String}
  {err : CheckError} {p : Complaint → Bool}

/-- The complaints that a run adds to those from reading: what it reports if there are none of these,
and room for all. -/
def added (input : LintInput) (policy : Policy) : List Complaint :=
  let alone : LintInput := { input with parseComplaints := [] }
  let total := (evaluate alone policy).summary.complaintsTotal
  (evaluate alone (policy.limitedTo total)).complaints

/-- The entries that the check for local copies is run on. -/
def askedFor (input : LintInput) (policy : Policy) : List Entry :=
  if policy.selected .localCopies then
    (contextOf input policy).entries.filter fun e =>
      !(policy.honorSuppressions && e.isSuppressed Check.localCopies.name)
  else []

/-- One complaint for each entry that the check for local copies fails on. -/
def lookupFailures (input : LintInput) (policy : Policy) : List Complaint :=
  (askedFor input policy).filterMap fun e =>
    (lookupError? input.probe e.key).map e.lookupFailure

/-! ## What a run adds -/

/-- Nothing is lost of what the checks contribute. -/
theorem added_eq (input : LintInput) (policy : Policy) :
    added input policy = Complaint.sort (tally input policy).complaints :=
  List.take_length

theorem mem_added : c ∈ added input policy ↔ c ∈ (tally input policy).complaints := by
  rw [added_eq, Complaint.mem_sort]

/-- A report shows the complaints from reading and those that the run adds, sorted together. -/
theorem evaluate_shows_added (input : LintInput) (policy : Policy) :
    (evaluate input policy).Shows
      (Complaint.sort (input.parseComplaints ++ added input policy)) policy.maxComplaints := by
  have hperm : (input.parseComplaints ++ added input policy).Perm
      (input.parseComplaints ++ (tally input policy).complaints) := by
    rw [added_eq]
    exact (Complaint.sort_perm _).append_left _
  rw [Complaint.sort_eq_of_perm hperm]
  exact evaluate_shows input policy

/-! ## The check for local copies -/

/-- The check fails exactly if it has no answer, and for the reason why it has none. -/
theorem localCopies_eq_error :
    Checks.localCopies e ctx = .error err ↔ lookupError? ctx.probe e.key = some err := by
  cases hprobe : ctx.probe with
  | none =>
      simp only [Checks.localCopies, lookupError?, hprobe, Except.error.injEq, Option.some.injEq]
  | some found =>
      cases hanswer : found e.key with
      | error failed =>
          simp only [Checks.localCopies, lookupError?, hprobe, hanswer, Except.error.injEq,
            Option.some.injEq]
      | ok present =>
          cases present <;> simp [Checks.localCopies, lookupError?, hprobe, hanswer]

/-- With an answer, the check finds what a check on an entry may find. -/
theorem gives_of_answer (h : lookupError? ctx.probe e.key = none) :
    (Checks.localCopies e ctx).Gives (e.Concerned .localCopies) := by
  have hcases : (∃ err, Checks.localCopies e ctx = .error err) ∨
      (Checks.localCopies e ctx).Gives (e.Concerned .localCopies) := Checks.gives_localCopies
  rcases hcases with ⟨err, hfails⟩ | hgives
  · rw [localCopies_eq_error.mp hfails] at h
    cases h
  · exact hgives

/-- On an entry that it is run on, the check makes a complaint about itself exactly if it cannot ask
for the copy. -/
theorem onEntry_failures (policy : Policy) (ctx : Context) (e : Entry) :
    (onEntry policy ctx .localCopies Checks.localCopies e).complaints.filter Complaint.isFailure =
      if policy.honorSuppressions && e.isSuppressed Check.localCopies.name then []
      else ((lookupError? ctx.probe e.key).map e.lookupFailure).toList := by
  rw [onEntry]
  split
  · rfl
  · cases hlookup : lookupError? ctx.probe e.key with
    | some err =>
        rw [localCopies_eq_error.mpr hlookup]
        rfl
    | none =>
        obtain ⟨cs, hgives, hcs⟩ := gives_of_answer hlookup
        rw [hgives]
        show cs.filter Complaint.isFailure = []
        rw [List.filter_eq_nil_iff]
        intro c hc
        rw [Complaint.isFailure, (hcs c hc).1.check]
        decide

theorem runCheck_localCopies (policy : Policy) (ctx : Context) (documents : List Document) :
    (runCheck policy ctx documents .localCopies).complaints = ctx.entries.flatMap fun e =>
      (onEntry policy ctx .localCopies Checks.localCopies e).complaints := by
  show (Tally.sum (ctx.entries.map _)).complaints = _
  rw [sum_complaints, List.flatMap_map]

theorem runCheck_failures (policy : Policy) (ctx : Context) (documents : List Document) :
    (runCheck policy ctx documents .localCopies).complaints.filter Complaint.isFailure =
      (ctx.entries.filter fun e =>
        !(policy.honorSuppressions && e.isSuppressed Check.localCopies.name)).filterMap fun e =>
          (lookupError? ctx.probe e.key).map e.lookupFailure := by
  rw [runCheck_localCopies, List.filter_flatMap, List.filterMap_filter,
    List.filterMap_eq_flatMap_toList]
  refine List.flatMap_congr fun e _ => ?_
  rw [onEntry_failures]
  cases policy.honorSuppressions && e.isSuppressed Check.localCopies.name <;> rfl

/-! ## Other checks -/

/-- All checks but the one for local copies give findings, whatever they are run on. -/
theorem neverFails (h : check ≠ .localCopies) : check.body.NeverFails := by
  cases hb : check.body with
  | entry run =>
      intro e ctx
      rcases entry_findings hb e ctx with ⟨hlocal, -⟩ | ⟨cs, hgives, -⟩
      · exact absurd hlocal h
      · exact ⟨cs, hgives⟩
  | collection run =>
      intro ctx
      obtain ⟨cs, hgives, -⟩ := collection_findings hb ctx
      exact ⟨cs, hgives⟩
  | window run =>
      intro m d words
      obtain ⟨cs, hgives, -⟩ := window_findings hb m d words
      exact ⟨cs, hgives⟩

/-- A check that does not fail makes all its complaints under its own name. -/
theorem check_of_mem_runCheck (hne : check ≠ .localCopies)
    (h : c ∈ (runCheck policy ctx documents check).complaints) : c.check = check.name := by
  cases adds_of_mem_runCheck h with
  | onEntry run hb e _ hc =>
      rw [onEntry] at hc
      split at hc
      · exact absurd hc List.not_mem_nil
      · rcases entry_findings hb e ctx with ⟨hlocal, -⟩ | ⟨cs, hgives, hcs⟩
        · exact absurd hlocal hne
        · rw [hgives] at hc
          exact (hcs c hc).1.check
  | onCollection found => exact found.check_eq
  | onDocument d _ spots =>
      obtain ⟨w, -, message, rfl⟩ := spots
      rfl

/-- If only one item gives anything, all items give what that one does. -/
theorem flatMap_eq_of_single {α β : Type} [DecidableEq α] {items : List α} {f : α → List β} {b : α}
    (hn : items.Nodup) (h : ∀ a ∈ items, a ≠ b → f a = []) :
    items.flatMap f = if b ∈ items then f b else [] := by
  induction items with
  | nil => rfl
  | cons a rest ih =>
      obtain ⟨ha, hrest⟩ := List.nodup_cons.mp hn
      have hothers : ∀ d ∈ rest, d ≠ b → f d = [] := fun d hd => h d (List.mem_cons_of_mem a hd)
      rw [List.flatMap_cons, ih hrest hothers]
      by_cases hab : a = b
      · rw [← hab, if_neg ha, if_pos List.mem_cons_self, List.append_nil]
      · rw [h a List.mem_cons_self hab, List.nil_append]
        simp [List.mem_cons, Ne.symm hab]

/-- The complaints about failed checks that a run adds are those of failed lookups. -/
theorem tally_failures (input : LintInput) (policy : Policy) :
    (tally input policy).complaints.filter Complaint.isFailure = lookupFailures input policy := by
  have hn : policy.selected.toList.Nodup := by
    refine List.Nodup.filter _ ?_
    decide
  have hothers : ∀ check ∈ policy.selected.toList, check ≠ .localCopies →
      (runCheck policy (contextOf input policy) input.documents check).complaints.filter
        Complaint.isFailure = [] := by
    intro check _ hne
    rw [List.filter_eq_nil_iff]
    intro c hc
    rw [Complaint.isFailure, check_of_mem_runCheck hne hc]
    simpa using name_ne_internalError check
  have hmem : .localCopies ∈ policy.selected.toList ↔ policy.selected .localCopies = true := by
    simp [CheckSet.toList, Check.mem_all]
  rw [tally, sum_complaints, List.flatMap_map, List.filter_flatMap,
    flatMap_eq_of_single hn hothers, lookupFailures, askedFor, runCheck_failures]
  simp only [hmem]
  split
  · rfl
  · rfl

/-! ## Other lookups -/

/-- The contribution without the complaints that are left out. -/
def Tally.restrict (p : Complaint → Bool) (t : Tally) : Tally :=
  ⟨t.complaints.filter p, t.suppressed⟩

theorem restrict_sum {α : Type} {items : List α} {f g : α → Tally}
    (h : ∀ a ∈ items, (f a).restrict p = (g a).restrict p) :
    (Tally.sum (items.map f)).restrict p = (Tally.sum (items.map g)).restrict p := by
  induction items with
  | nil => rfl
  | cons a rest ih =>
      have hfirst := h a List.mem_cons_self
      have hrest := ih fun b hb => h b (List.mem_cons_of_mem a hb)
      simp only [Tally.restrict, Tally.mk.injEq] at hfirst hrest
      simp only [List.map_cons, sum_cons, Tally.append, Tally.restrict, List.filter_append,
        hfirst.1, hfirst.2, hrest.1, hrest.2]

/-- The lookups of the key have the same answer. -/
def SameAnswer (probe probe' : Option Probe) (key : String) : Prop :=
  (probe.map fun found => found key) = probe'.map fun found => found key

theorem localCopies_congr {ctx' : Context} (h : SameAnswer ctx.probe ctx'.probe e.key) :
    Checks.localCopies e ctx = Checks.localCopies e ctx' := by
  unfold SameAnswer at h
  unfold Checks.localCopies
  cases hfirst : ctx.probe with
  | none =>
      cases hsecond : ctx'.probe with
      | none => rfl
      | some found =>
          rw [hfirst, hsecond] at h
          cases h
  | some found =>
      cases hsecond : ctx'.probe with
      | none =>
          rw [hfirst, hsecond] at h
          cases h
      | some found' =>
          rw [hfirst, hsecond] at h
          have hanswer : found e.key = found' e.key := Option.some.inj h
          simp only [hanswer]

theorem suppressed_onEntry (run : Entry → Context → Findings) (e : Entry) :
    (onEntry policy ctx check run e).suppressed =
      if policy.honorSuppressions && e.isSuppressed check.name then 1 else 0 := by
  rw [onEntry]
  split
  · rfl
  · split <;> rfl

/-- No complaint is kept that depends on a lookup for which the two answers differ. -/
def Blind (probe probe' : Option Probe) (p : Complaint → Bool) : Prop :=
  ∀ e c, OfEntry e .localCopies c → p c = true → SameAnswer probe probe' e.key

/-- On an entry, either the lookup has the same answer or none of its complaints is kept. -/
theorem onEntry_restrict (hp : Blind ctx.probe probe p) (e : Entry) :
    (onEntry policy { ctx with probe } .localCopies Checks.localCopies e).restrict p =
      (onEntry policy ctx .localCopies Checks.localCopies e).restrict p := by
  have hcomplaints : (onEntry policy { ctx with probe } .localCopies
      Checks.localCopies e).complaints.filter p =
        (onEntry policy ctx .localCopies Checks.localCopies e).complaints.filter p := by
    by_cases hsame : SameAnswer ctx.probe probe e.key
    · have hrun : Checks.localCopies e ctx = Checks.localCopies e { ctx with probe } :=
        localCopies_congr hsame
      rw [onEntry, onEntry, hrun]
    · -- Nothing is left of either, as all complaints here depend on the lookup.
      have hnone : ∀ ctx' : Context,
          (onEntry policy ctx' .localCopies Checks.localCopies e).complaints.filter p = [] := by
        intro ctx'
        rw [List.filter_eq_nil_iff]
        intro c hc hkept
        exact hsame (hp e c (ofEntry_of_mem_onEntry rfl hc) hkept)
      rw [hnone, hnone]
  rw [Tally.restrict, Tally.restrict, hcomplaints, suppressed_onEntry, suppressed_onEntry]

theorem entry_unasked {run : Entry → Context → Findings} (h : check.body = .entry run)
    (hne : check ≠ .localCopies) (e : Entry) (ctx ctx' : Context) : run e ctx = run e ctx' := by
  cases check with
  | localCopies => exact absurd rfl hne
  | _ => cases h <;> rfl

theorem collection_unasked {run : Context → Findings} (h : check.body = .collection run)
    (ctx : Context) (probe : Option Probe) : run { ctx with probe } = run ctx := by
  cases check with
  | duplicateEntries | identicalTitles | uncitedCitations | undefinedCitations => cases h; rfl
  | _ => cases h

/-- Other checks do not look anything up. -/
theorem runCheck_probe (hne : check ≠ .localCopies) (policy : Policy) (ctx : Context)
    (documents : List Document) (probe : Option Probe) :
    runCheck policy { ctx with probe } documents check = runCheck policy ctx documents check := by
  rw [runCheck, runCheck]
  cases hb : check.body with
  | entry run =>
      have hsame : onEntry policy { ctx with probe } check run = onEntry policy ctx check run := by
        funext e
        rw [onEntry, onEntry, entry_unasked hb hne e { ctx with probe } ctx]
      dsimp only
      rw [hsame]
      rfl
  | collection run =>
      dsimp only
      rw [onCollection, onCollection, collection_unasked hb]
      rfl
  | window run => rfl

theorem tally_restrict (hp : Blind input.probe probe p) (policy : Policy) :
    (tally { input with probe } policy).restrict p = (tally input policy).restrict p := by
  refine restrict_sum fun check _ => ?_
  by_cases hlocal : check = .localCopies
  · rw [hlocal]
    exact restrict_sum fun e _ => onEntry_restrict hp e
  · have hsame := runCheck_probe hlocal policy (contextOf input policy) input.documents probe
    exact congrArg (Tally.restrict p) hsame

/-- The same holds of all complaints that a run adds, in their order. -/
theorem added_probe (hp : Blind input.probe probe p) (policy : Policy) :
    (added { input with probe } policy).filter p = (added input policy).filter p := by
  have hfound : (tally { input with probe } policy).complaints.filter p =
      (tally input policy).complaints.filter p :=
    congrArg Tally.complaints (tally_restrict hp policy)
  rw [added_eq, added_eq, Complaint.filter_sort, Complaint.filter_sort, hfound]

theorem blind_producer (probe probe' : Option Probe) :
    Blind probe probe' fun c => producer c != Check.localCopies.name := by
  intro e c hof hkept
  simp only [hof.producer, bne_self_eq_false] at hkept
  cases hkept

theorem blind_key (h : SameAnswer probe probe' key) :
    Blind probe probe' fun c => c.key == some key := by
  intro e c hof hkept
  simp only [hof.key, beq_iff_eq, Option.some.injEq] at hkept
  rw [hkept]
  exact h

/-! ## Runs -/

/-- The check for local copies complains in its own name only if it had an answer. -/
theorem answer_of_mem_onEntry
    (h : c ∈ (onEntry policy ctx .localCopies Checks.localCopies e).complaints)
    (hc : c.check = Check.localCopies.name) : lookupError? ctx.probe e.key = none := by
  cases hlookup : lookupError? ctx.probe e.key with
  | none => rfl
  | some err =>
      rw [onEntry] at h
      split at h
      · exact absurd h List.not_mem_nil
      · rw [localCopies_eq_error.mpr hlookup] at h
        obtain rfl := List.mem_singleton.mp h
        exact absurd hc (name_ne_internalError .localCopies).symm

/-- An entry that the check for local copies complains about had an answer. -/
theorem answer_of_complaint (h : c ∈ added input policy)
    (hc : c.check = Check.localCopies.name) :
    ∃ key, c.key = some key ∧ lookupError? input.probe key = none := by
  obtain ⟨check, -, hmem⟩ := mem_tally.mp (mem_added.mp h)
  by_cases hlocal : check = .localCopies
  · rw [hlocal, runCheck_localCopies] at hmem
    obtain ⟨e, -, hmem⟩ := List.mem_flatMap.mp hmem
    exact ⟨e.key, (ofEntry_of_mem_onEntry rfl hmem).key, answer_of_mem_onEntry hmem hc⟩
  · have hname : check.name = Check.localCopies.name :=
      (check_of_mem_runCheck hlocal hmem).symm.trans hc
    exact absurd (Check.name_injective hname) hlocal

/-- What is said of a run whose check for local copies has nowhere to look. -/
def unavailableMessage : String :=
  "Check \"check-local-copies\" failed: local copy directory is not available for this run"

theorem message_lookupFailure (e : Entry) (key reason : String) :
    (e.lookupFailure (.localCopy key reason)).message ≠ unavailableMessage := by
  have hmessage : (e.lookupFailure (.localCopy key reason)).message =
      "Check \"check-local-copies\" failed: " ++
        ("local copy lookup for '" ++ (key ++ "' failed: " ++ reason)) := by
    show "Check \"check-local-copies\" failed: " ++
      ("local copy lookup for '" ++ key ++ "' failed: " ++ reason) = _
    rw [String.append_assoc, String.append_assoc, String.append_assoc]
  intro h
  rw [hmessage, ← String.append_assoc] at h
  have hprefix : ("Check \"check-local-copies\" failed: " ++ "local copy lookup for '").toList <+:
      unavailableMessage.toList :=
    ⟨(key ++ "' failed: " ++ reason).toList, by rw [← String.toList_append, h]⟩
  -- The two part after the words "local copy".
  exact absurd hprefix (by decide +kernel)

/-! ## Whole runs -/

/-- Failures stay where they arise.  The report shows what the run adds along with the complaints from
reading.  Among what is added is one complaint for each lookup that goes wrong, and no other complaint
of the check for local copies there; and what does not depend on a lookup, or depends on one with the
same answer, is the same with any other probe. -/
structure Isolated (input : LintInput) (policy : Policy) : Prop where
  shown : (evaluate input policy).Shows
    (Complaint.sort (input.parseComplaints ++ added input policy)) policy.maxComplaints
  failures : (added input policy).filter Complaint.isFailure =
    Complaint.sort (lookupFailures input policy)
  answered : ∀ c ∈ added input policy, c.check = Check.localCopies.name →
    ∃ key, c.key = some key ∧ lookupError? input.probe key = none
  others : ∀ probe,
    (added { input with probe } policy).filter (fun c => producer c != Check.localCopies.name) =
      (added input policy).filter fun c => producer c != Check.localCopies.name
  sameAnswers : ∀ probe key, SameAnswer input.probe probe key →
    (added { input with probe } policy).filter (fun c => c.key == some key) =
      (added input policy).filter fun c => c.key == some key
  suppressed : ∀ probe, (evaluate { input with probe } policy).summary.unitsSuppressed =
    (evaluate input policy).summary.unitsSuppressed

theorem isolated (input : LintInput) (policy : Policy) : Isolated input policy where
  shown := evaluate_shows_added input policy
  failures := by
    rw [added_eq, Complaint.filter_sort, tally_failures]
  answered := fun _ => answer_of_complaint
  others := fun probe => added_probe (blind_producer input.probe probe) policy
  sameAnswers := fun probe key hsame => added_probe (blind_key hsame) policy
  suppressed := by
    intro probe
    have hsame := congrArg Tally.suppressed
      (tally_restrict (blind_producer input.probe probe) policy)
    exact hsame

/-- Looking into a directory goes wrong only over a path in it. -/
theorem localCopy_of_lookupError {view : FileView} {dir : String}
    (h : lookupError? (some (LocalCopies.probe view dir)) key = some err) :
    ∃ reason, err = .localCopy key reason := by
  cases hpaths : LocalCopies.anyPresent view (LocalCopies.candidates dir key) with
  | error failed =>
      simp only [lookupError?, LocalCopies.probe, hpaths] at h
      exact ⟨_, (Option.some.inj h).symm⟩
  | ok found =>
      simp only [lookupError?, LocalCopies.probe, hpaths] at h
      cases h

/-- In a session, the check for local copies has a directory to look into, and nothing that was read
complains of a failed check. -/
theorem failure_of_session {view : FileView} {r : Session.Request} {resolved : Resolved}
    (ha : Session.Accepted r resolved) (hl : Session.load view r = .ok input)
    (hc : c ∈ input.parseComplaints ∨ c ∈ added input resolved.policy) (hf : c.isFailure = true) :
    ∃ e reason, c = Entry.lookupFailure e (.localCopy e.key reason) := by
  obtain ⟨bibliographies, documents, -, -, rfl⟩ := Session.load_eq_ok hl
  rcases hc with hparsed | hadded
  · have hread := Session.readFrom_inputOf bibliographies documents
      (r.localDir.map (LocalCopies.probe view))
    have hcheck := hread.check_of_mem_parseComplaints c hparsed
    rw [Complaint.isFailure, hcheck] at hf
    cases hf
  · have hfailed := List.mem_filter.mpr ⟨hadded, hf⟩
    rw [(isolated _ _).failures, Complaint.mem_sort] at hfailed
    obtain ⟨e, he, hgives⟩ := List.mem_filterMap.mp hfailed
    obtain ⟨err, herr, rfl⟩ := Option.map_eq_some_iff.mp hgives
    rw [askedFor] at he
    split at he
    · next hselected =>
        obtain ⟨dir, hdir⟩ := ha.copies hselected
        have hprobe : (r.localDir.map (LocalCopies.probe view)) = some (LocalCopies.probe view dir) :=
          congrArg (Option.map _) hdir
        obtain ⟨reason, rfl⟩ := localCopy_of_lookupError (hprobe ▸ herr)
        exact ⟨e, reason, rfl⟩
    · exact absurd he List.not_mem_nil

/-- A report has no complaints but those from reading and those that the run adds. -/
theorem parsed_or_added (h : c ∈ (evaluate input policy).complaints) :
    c ∈ input.parseComplaints ∨ c ∈ added input policy := by
  rw [(evaluate_shows_added input policy).complaints] at h
  have hall := List.mem_of_mem_take h
  rwa [Complaint.mem_sort, List.mem_append] at hall

/-- Failures of a run are isolated; no other check fails, the one for book numbers included, whose
conversion is only tried on numbers that convert; and a session that runs the check for local copies
has a directory to look into, so neither its report nor what the list was cut from says that there is
none. -/
theorem evaluate_isolates (input : LintInput) (policy : Policy) :
    Isolated input policy ∧
      (∀ check : Check, check ≠ .localCopies → check.body.NeverFails) ∧
      (∀ value, Isbn.validate value = [] → Isbn.kindOf? value = some .isbn10 →
        ∃ long, Isbn.toIsbn13 value = .ok long) ∧
      (∀ r resolved, Session.choices r = .ok resolved →
        resolved.policy.selected .localCopies = true → ∃ dir, r.localDir = some dir) ∧
      ∀ view r started finished outcome, Session.run view r started finished = .ok outcome →
        ∃ input, Session.load view r = .ok input ∧
          outcome.report = Session.reportOf input outcome.choices.policy r.bibliographies.length
            started finished ∧
          ∀ c, c ∈ outcome.report.complaints ∨ c ∈ added input outcome.choices.policy →
            c.isFailure = true → c.message ≠ unavailableMessage := by
  refine ⟨isolated input policy, fun check => neverFails, ?_, ?_, ?_⟩
  · intro value hvalid hkind
    exact ⟨_, Isbn.toIsbn13_eq_ok hkind (by simp [hvalid])⟩
  · intro r resolved hchoices
    exact (Session.accepted_of_choices hchoices).copies
  · intro view r started finished outcome hrun
    obtain ⟨haccepted, input, hload, hreport⟩ := Session.run_eq_ok hrun
    refine ⟨input, hload, hreport, ?_⟩
    intro c hc hfailure
    have hsource : c ∈ input.parseComplaints ∨ c ∈ added input outcome.choices.policy := by
      rcases hc with hshown | hadded
      · rw [hreport] at hshown
        exact parsed_or_added hshown
      · exact .inr hadded
    obtain ⟨e, reason, rfl⟩ := failure_of_session haccepted hload hsource hfailure
    exact message_lookupFailure e e.key reason

/-- Three works and a complaint from reading: the copy of one work cannot be asked for, that of another
is not there, and the third is left alone by the check. -/
def unreadableInput : LintInput where
  bibliography := .ofEntries
    [⟨"misc", "locked", ⟨"refs.bib"⟩, 1, 2, [], []⟩,
      ⟨"misc", "lacking", ⟨"refs.bib"⟩, 4, 5, [], []⟩,
      ⟨"misc", "exempt", ⟨"refs.bib"⟩, 8, 9, [], [("check-local-copies", none)]⟩]
  citations := none
  documents := []
  probe := some fun key => if key == "lacking" then .ok false else .error (.localCopy key "no access")
  parseComplaints := [.raise Complaint.parseError ⟨⟨"refs.bib"⟩, 7⟩ "stray brace"]

/-- A session whose directory of copies is a file. -/
def unreadableView : FileView :=
  .ofList [("refs.bib", .ok (.file
    ("@misc\x7blocked,\n\x7d\n".toList.map fun c => c.toNat.toUInt8))),
    ("copies/locked.pdf", .error .notDirectory)]

/-- What that session is asked to do. -/
def unreadableRequest : Session.Request :=
  ⟨["refs.bib"], [], "", ⟨some "check-local-copies", false, false, none⟩, some "copies"⟩

theorem evaluate_isolates_unreadable :
    let policy : Policy := ⟨fun check => check == .localCopies, true, false, 5⟩
    let present : Probe := fun key => .ok (key != "lacking")
    (evaluate unreadableInput policy).summary.complaintsTotal = 3 ∧
      (∃ c, (evaluate unreadableInput policy).complaints.filter Complaint.isFailure = [c] ∧
        c.location.line = 1 ∧ c.key = some "locked") ∧
      (added { unreadableInput with probe := some present } policy).filter
          (fun c => c.key == some "lacking") =
        (added unreadableInput policy).filter (fun c => c.key == some "lacking") ∧
      Check.isbn.body.NeverFails ∧
      (∃ long, Isbn.toIsbn13 "0-306-40615-2".toList = .ok long) ∧
      (∃ dir, unreadableRequest.localDir = some dir) ∧
      ∃ outcome, Session.run unreadableView unreadableRequest default default = .ok outcome ∧
        ∀ c ∈ outcome.report.complaints, c.isFailure = true → c.message ≠ unavailableMessage := by
  intro policy present
  obtain ⟨hisolated, hothers, hisbn, hchoices, hsession⟩ :=
    evaluate_isolates unreadableInput policy
  have htotal : (evaluate unreadableInput policy).summary.complaintsTotal = 3 := by
    rw [evaluate_total, allComplaints, Complaint.length_sort]
    decide +kernel
  have hall : (evaluate unreadableInput policy).complaints =
      Complaint.sort (unreadableInput.parseComplaints ++ added unreadableInput policy) := by
    rw [hisolated.shown.complaints]
    refine List.take_of_length_le ?_
    rw [← hisolated.shown.total, htotal]
    decide
  have hone : lookupFailures unreadableInput policy =
      [Entry.lookupFailure ⟨"misc", "locked", ⟨"refs.bib"⟩, 1, 2, [], []⟩
        (.localCopy "locked" "no access")] := by
    decide +kernel
  have hfailures : (evaluate unreadableInput policy).complaints.filter Complaint.isFailure =
      Complaint.sort (lookupFailures unreadableInput policy) := by
    rw [hall, Complaint.filter_sort, List.filter_append, hisolated.failures]
    exact Complaint.sort_eq_of_perm (Complaint.sort_perm _)
  have hsame : SameAnswer unreadableInput.probe (some present) "lacking" := by
    simp [SameAnswer, unreadableInput, present]
  rw [hone] at hfailures
  refine ⟨htotal, ⟨_, hfailures.trans (List.mergeSort_singleton _), rfl, rfl⟩,
    hisolated.sameAnswers _ "lacking" hsame, hothers .isbn (by decide),
    hisbn _ (by decide +kernel) (by decide +kernel), ?_, ?_⟩
  · have hselected : (Session.choices unreadableRequest).toOption.any
        (fun resolved => resolved.policy.selected .localCopies) = true := by decide +kernel
    cases hchosen : Session.choices unreadableRequest with
    | error e =>
        rw [hchosen] at hselected
        cases hselected
    | ok resolved =>
        rw [hchosen] at hselected
        exact hchoices _ resolved hchosen hselected
  · obtain ⟨outcome, hrun⟩ : ∃ outcome,
        Session.run unreadableView unreadableRequest default default = .ok outcome :=
      exists_eq_ok (by decide +kernel)
    obtain ⟨input, -, -, hmessages⟩ := hsession _ _ _ _ outcome hrun
    exact ⟨outcome, hrun, fun c hc => hmessages c (.inl hc)⟩

end Lint

end BibAudit
