import PathOptions.Brace.Cursor
import PathOptions.Proofs.Brace.Denotation
/-!
Walking through a pattern one result at a time gives the results of its expansion. What is still to
come from a cursor is a list (`Cursor.results`), and a call takes its first element off, so a walk
that was called `k` times has the results from the `k`-th on before it. Any number of walks may go
through one pattern at a time; a call moves the walk that it is for and no other
(`walks_follow_expansion`). A pattern has at least one result, because a list of items and a
sequence have at least one element.
-/

namespace PathOptions.Brace

/-! ## Products -/

theorem product_append (first second third : List Text) :
    product (first ++ second) third = product first third ++ product second third :=
  List.flatMap_append

theorem product_map_append (lead : Text) (first second : List Text) :
    product (first.map (lead ++ ·)) second = (product first second).map (lead ++ ·) := by
  simp [product, List.flatMap_map, List.map_flatMap, Function.comp_def]

theorem product_assoc (first second third : List Text) :
    product (product first second) third = product first (product second third) := by
  simp [product, List.flatMap_assoc, List.flatMap_map, List.map_flatMap, Function.comp_def]

theorem product_ne_nil {first second : List Text} (hfirst : first ≠ []) (hsecond : second ≠ []) :
    product first second ≠ [] := by
  obtain ⟨a, ha⟩ := List.exists_mem_of_ne_nil first hfirst
  obtain ⟨b, hb⟩ := List.exists_mem_of_ne_nil second hsecond
  exact List.ne_nil_of_mem (List.mem_flatMap.2 ⟨a, ha, List.mem_map_of_mem hb⟩)

/-! ## What is still to come -/

def resultsOfAll : List Tree → List Text
  | [] => [[]]
  | tree :: rest => product tree.results (resultsOfAll rest)

namespace Cursor

/-- What is still to come from a draft. -/
def draftResults (draft : Draft) : List Text :=
  (resultsOfAll draft.remaining).map (draft.written ++ ·)

/-- What is still to come from a cursor. -/
def results (cursor : Cursor) : List Text := cursor.flatMap draftResults

theorem results_ofTree (tree : Tree) : results (.ofTree tree) = tree.results := by
  simp [results, ofTree, draftResults, resultsOfAll, product]

/-- The drafts of a group stand for what the group stood for: its tail begins anew behind every
result of a choice. -/
theorem results_branch (written lead : Text) (choices : List Tree) (tail : Tree)
    (rest : List Tree) :
    results (branch written lead choices tail rest) =
      draftResults ⟨written, .group lead choices tail :: rest⟩ := by
  have hdrafts : results (branch written lead choices tail rest) =
      (product (Tree.resultsOfAny choices) (product tail.results (resultsOfAll rest))).map
        (written ++ lead ++ ·) := by
    induction choices with
    | nil => rfl
    | cons choice others ih =>
      rw [Tree.resultsOfAny, product_append, List.map_append, ← ih]
      rfl
  rw [hdrafts]
  simp [draftResults, resultsOfAll, results_group, product_map_append, product_assoc]

/-- A call takes the first result off what is still to come, and finds nothing only if nothing is
to come. -/
theorem results_eq_of_next (cursor : Cursor) :
    results cursor = (next cursor).elim [] fun found => found.1 :: results found.2 := by
  fun_induction next cursor with
  | case1 => rfl
  | case2 written rest => simp [results, draftResults, resultsOfAll]
  | case3 written t trees rest ih =>
    rw [← ih]
    simp [results, draftResults, resultsOfAll, Tree.results, product]
  | case4 written lead choices tail trees rest ih =>
    rw [← ih, results, List.flatMap_cons, results, List.flatMap_append]
    exact congrArg (· ++ _) (results_branch written lead choices tail trees).symm

theorem take_eq_take_results (n : Nat) (cursor : Cursor) :
    cursor.take n = cursor.results.take n := by
  induction n generalizing cursor with
  | zero => rfl
  | succ n ih =>
    rw [take, results_eq_of_next cursor]
    cases next cursor with
    | none => rfl
    | some found => exact congrArg (found.1 :: ·) (ih found.2)

end Cursor

theorem results_cursor (pattern : Text) : (cursor pattern).results = expand pattern :=
  Cursor.results_ofTree (parse pattern)

/-! ## Patterns have results -/

theorem progression_ne_nil (first last : Int) (step : Nat) :
    Sequence.progression first last step ≠ [] := by
  simp [Sequence.progression]

theorem between_ne_nil {first last : Text} {step : Nat} {elements : List Text}
    (h : Sequence.between? first last step = some elements) : elements ≠ [] := by
  unfold Sequence.between? at h
  split at h
  · cases h
    simp [Sequence.numbers, progression_ne_nil]
  · split at h
    · cases h
      simp [Sequence.characters, progression_ne_nil]
    · cases h

theorem generate_ne_nil {body : Text} {elements : List Text}
    (h : Sequence.generate body = some elements) : elements ≠ [] := by
  unfold Sequence.generate at h
  split at h
  · exact between_ne_nil h
  · split at h
    · exact between_ne_nil h
    · cases h
  · cases h

/-- A body that is a sequence has an element, and one that is a list has an item. -/
theorem readBody_ne_nil {t : Text} {body : Body} (h : readBody t = some body) :
    body ≠ .sequence [] ∧ body ≠ .items [] := by
  unfold readBody at h
  split at h
  · cases h
    exact ⟨nofun, nofun⟩
  · split at h
    · rename_i elements hgenerate
      cases h
      exact ⟨fun heq => generate_ne_nil hgenerate (Body.sequence.inj heq), nofun⟩
    · split at h
      · cases h
      · cases h
      · rename_i hnone _
        cases h
        exact ⟨nofun, fun heq => hnone (Body.items.inj heq)⟩

theorem closeGroup_ne_nil {rejected : Option Text} {t after : Text} {body : Body}
    (h : closeGroup rejected t = some (body, after)) :
    body ≠ .sequence [] ∧ body ≠ .items [] := by
  fun_induction closeGroup rejected t with
  | case1 => cases h
  | case2 rejected t piece rest _ found hbody =>
    cases h
    exact readBody_ne_nil hbody
  | case3 rejected t piece rest _ _ ih => exact ih h

theorem results_group_ne_nil {lead : Text} {choices : List Tree} {tail : Tree}
    (hchoices : Tree.resultsOfAny choices ≠ []) (htail : tail.results ≠ []) :
    (Tree.group lead choices tail).results ≠ [] := by
  rw [results_group]
  simpa using product_ne_nil hchoices htail

/-- Every pattern stands for something. -/
theorem results_parse_ne_nil (pattern : Text) : (parse pattern).results ≠ [] := by
  fun_induction parse pattern with
  | case1 pattern whole _ => exact List.cons_ne_nil _ _
  | case2 pattern lead post _ _ ih =>
    exact results_group_ne_nil (List.cons_ne_nil _ _) ih
  | case3 pattern lead post _ after _ ih =>
    exact results_group_ne_nil (List.cons_ne_nil _ _) ih
  | case4 pattern lead post _ elements after hclose ih =>
    refine results_group_ne_nil ?_ ih
    rw [resultsOfAny_map_text]
    exact fun hnil => (closeGroup_ne_nil hclose).1 (hnil ▸ rfl)
  | case5 pattern lead post _ patterns after hclose ihitem ih =>
    refine results_group_ne_nil ?_ ih
    cases patterns with
    | nil => exact absurd rfl (closeGroup_ne_nil hclose).2
    | cons item others =>
      have hitem := ihitem item (.head _)
      simp [Tree.resultsOfAny, hitem]

/-! ## Walks through one pattern -/

/-- Where a new walk gets its tree from. -/
inductive Origin where
  /-- The pattern was parsed before; all walks of this kind share its tree. -/
  | sharedTree
  /-- The pattern is parsed for this walk alone. -/
  | pattern
  deriving DecidableEq, Repr

/-- What may be asked of the walks through a pattern; they are numbered as they are started. -/
inductive Call where
  | start (origin : Origin)
  | next (walk : Nat)
  deriving DecidableEq, Repr

def Call.isStart : Call → Bool
  | start _ => true
  | next _ => false

def Origin.cursor (pattern : Text) (tree : Tree) : Origin → Cursor
  | .sharedTree => .ofTree tree
  | .pattern => Brace.cursor pattern

/-- The answer to a call and the walks after it. A walk at its end stays there. -/
def serve (pattern : Text) (tree : Tree) (walks : List Cursor) :
    Call → Option Text × List Cursor
  | .start origin => (none, walks ++ [origin.cursor pattern tree])
  | .next walk =>
    match walks[walk]? with
    | none => (none, walks)
    | some cursor =>
      match cursor.next with
      | none => (none, walks)
      | some (t, rest) => (some t, walks.set walk rest)

def walksAfter (pattern : Text) (tree : Tree) (walks : List Cursor) (calls : List Call) :
    List Cursor :=
  calls.foldl (fun walks call => (serve pattern tree walks call).2) walks

/-- The answer to a call after others, the pattern being parsed once and no walk being started
before. -/
def answer (pattern : Text) (calls : List Call) (call : Call) : Option Text :=
  let tree := parse pattern
  (serve pattern tree (walksAfter pattern tree [] calls) call).1

theorem length_serve (pattern : Text) (tree : Tree) (walks : List Cursor) (call : Call) :
    (serve pattern tree walks call).2.length = walks.length + [call].countP Call.isStart := by
  cases call with
  | start origin => simp [serve, Call.isStart]
  | next walk =>
    simp only [serve]
    split
    · simp [Call.isStart]
    · split <;> simp [Call.isStart]

/-- A walk has the number of walks that were started before it. -/
theorem length_walksAfter (pattern : Text) (tree : Tree) (walks : List Cursor)
    (calls : List Call) :
    (walksAfter pattern tree walks calls).length =
      walks.length + calls.countP Call.isStart := by
  induction calls generalizing walks with
  | nil => rfl
  | cons call rest ih =>
    have hrest : (walksAfter pattern tree walks (call :: rest)).length =
        (serve pattern tree walks call).2.length + rest.countP Call.isStart := ih _
    rw [hrest, length_serve, Nat.add_assoc, ← List.countP_append, List.singleton_append]

/-- A call for one walk leaves the others where they are. -/
theorem getElem?_serve_of_ne (pattern : Text) (tree : Tree) (walks : List Cursor)
    {other walk : Nat} (h : other ≠ walk) :
    (serve pattern tree walks (.next other)).2[walk]? = walks[walk]? := by
  simp only [serve]
  split
  · rfl
  · split
    · rfl
    · exact List.getElem?_set_ne h

theorem serve_next {pattern : Text} {tree : Tree} {walks : List Cursor} {walk : Nat}
    {cursor : Cursor} (h : walks[walk]? = some cursor) :
    serve pattern tree walks (.next walk) =
      cursor.next.elim (none, walks) fun found => (some found.1, walks.set walk found.2) := by
  simp only [serve, h]
  cases cursor.next <;> rfl

theorem results_origin (pattern : Text) (origin : Origin) :
    (origin.cursor pattern (parse pattern)).results = expand pattern := by
  cases origin <;> exact results_cursor pattern

/-- A walk has the results of the expansion from the `k`-th on before it. -/
def Stands (pattern : Text) (walks : List Cursor) (walk k : Nat) : Prop :=
  ∃ cursor, walks[walk]? = some cursor ∧ cursor.results = (expand pattern).drop k

section

variable {pattern : Text} {walks : List Cursor} {walk k : Nat}

theorem stands_start (pattern : Text) (walks : List Cursor) (origin : Origin) :
    Stands pattern (serve pattern (parse pattern) walks (.start origin)).2 walks.length 0 :=
  ⟨origin.cursor pattern (parse pattern), by simp [serve], results_origin pattern origin⟩

theorem Stands.answer (h : Stands pattern walks walk k) :
    (serve pattern (parse pattern) walks (.next walk)).1 = (expand pattern)[k]? := by
  obtain ⟨cursor, hcursor, hresults⟩ := h
  rw [← List.head?_drop, ← hresults, cursor.results_eq_of_next, serve_next hcursor]
  cases cursor.next <;> rfl

/-- A call moves the walk that it is for by one result, and no other. -/
theorem Stands.serve (h : Stands pattern walks walk k) (call : Call) :
    Stands pattern (serve pattern (parse pattern) walks call).2 walk
      (k + [call].count (.next walk)) := by
  obtain ⟨cursor, hcursor, hresults⟩ := h
  have hlt := (List.getElem?_eq_some_iff.1 hcursor).1
  cases call with
  | start origin => exact ⟨cursor, (List.getElem?_append_left hlt).trans hcursor, hresults⟩
  | next other =>
    -- a call for the walk takes its first result, also if there is none: the end is kept
    by_cases hother : other = walk
    · subst hother
      have htail : cursor.results.tail = (expand pattern).drop (k + 1) := by
        rw [hresults, List.tail_drop]
      have hnext := cursor.results_eq_of_next
      rw [List.count_singleton_self, Stands, ← htail, hnext, serve_next hcursor]
      cases hfound : cursor.next with
      | none => exact ⟨cursor, hcursor, by rw [hnext, hfound]; rfl⟩
      | some found => exact ⟨found.2, List.getElem?_set_self hlt, rfl⟩
    · rw [List.count_singleton, if_neg (by simpa using hother)]
      exact ⟨cursor, (getElem?_serve_of_ne _ _ _ hother).trans hcursor, hresults⟩

/-- Of a run of calls, those for a walk move it. -/
theorem Stands.walksAfter (h : Stands pattern walks walk k) (calls : List Call) :
    Stands pattern (walksAfter pattern (parse pattern) walks calls) walk
      (k + calls.count (.next walk)) := by
  induction calls generalizing walks k with
  | nil => exact h
  | cons call rest ih =>
    rw [← List.singleton_append, List.count_append, ← Nat.add_assoc]
    exact ih (h.serve call)

end

/-- However walks are started and called, a walk answers its calls with the results of the
expansion, one after the other, and with nothing behind the last. The number of calls for it since
its start says which one is next. The expansion is never empty, and the first results are its first
elements. -/
theorem walks_follow_expansion (pattern : Text) :
    (∀ (earlier later : List Call) (origin : Origin),
      let walk := earlier.countP Call.isStart
      answer pattern (earlier ++ .start origin :: later) (.next walk) =
        (expand pattern)[later.count (.next walk)]?) ∧
      expand pattern ≠ [] ∧
      ∀ n, (cursor pattern).take n = (expand pattern).take n := by
  refine ⟨fun earlier later origin => ?_, results_parse_ne_nil pattern, fun n => ?_⟩
  · have hnumber := length_walksAfter pattern (parse pattern) [] earlier
    have hstart := stands_start pattern (walksAfter pattern (parse pattern) [] earlier) origin
    rw [hnumber, List.length_nil, Nat.zero_add] at hstart
    have hlater := (hstart.walksAfter later).answer
    rw [Nat.zero_add] at hlater
    simpa only [answer, walksAfter, List.foldl_append, List.foldl_cons] using hlater
  · rw [Cursor.take_eq_take_results, results_cursor]

end PathOptions.Brace
