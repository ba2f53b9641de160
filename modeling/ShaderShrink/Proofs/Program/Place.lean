import ShaderShrink.Proofs.Program.Fits

/-!
# Places in outlines

A position in an outline is a list of numbers: which part to go to, level by level. `Outline.part?`
is the part at a position, and `Outline.splice` puts other parts in the place of one: the outline
is left as it is everywhere else, and the parts beside it keep their order.

Read from top to bottom, what a splice does is to replace a stretch of the payloads
(`Outline.payloads_splice`). Counting them gives the number of nodes that it brings and takes away
(`Outline.size_splice`).
-/

namespace ShaderShrink.Outline

/-- The parts right below the top. -/
def parts : Outline → List Outline
  | .node _ parts => parts

/-- The part at a position. -/
def part? (t : Outline) : List Nat → Option Outline
  | [] => some t
  | i :: path => t.parts[i]?.bind fun u => u.part? path

/-- The outline in which part number `i` of the node at a position has given way to `stays`. -/
def splice (stays : List Outline) (i : Nat) : List Nat → Outline → Outline
  | [], .node data parts => .node data (parts.take i ++ stays ++ parts.drop (i + 1))
  | k :: path, .node data parts => .node data (parts.modify k (splice stays i path))

mutual

/-- The payloads, those of a node before those of its parts. -/
def payloads : Outline → List Payload
  | .node data parts => data :: payloadsAll parts

/-- The payloads of some outlines, one after another. -/
def payloadsAll : List Outline → List Payload
  | [] => []
  | t :: rest => t.payloads ++ payloadsAll rest

end

section
variable {t u old : Outline} {ts us : List Outline} {i k : Nat} {path more : List Nat}

/-- A path first leads to a part and goes on from there. -/
theorem part?_cons_eq_some_iff :
    t.part? (i :: path) = some u ↔ ∃ v, t.parts[i]? = some v ∧ v.part? path = some u := by
  rw [part?, Option.bind_eq_some_iff]

/-- A path of one step leads to a part. -/
theorem part?_singleton : t.part? [i] = t.parts[i]? := by
  simp only [part?, Option.bind_fun_some]

/-- Going on from a position. -/
theorem part?_append (h : t.part? path = some u) : t.part? (path ++ more) = u.part? more := by
  induction path generalizing t with
  | nil =>
    cases h
    rfl
  | cons k path ih =>
    obtain ⟨v, hv, h⟩ := part?_cons_eq_some_iff.1 h
    rw [List.cons_append, part?, hv, Option.bind_some, ih h]

/-- What is spliced below the top leaves the payload on top as it is. -/
@[simp] theorem data_splice : (t.splice us i path).data = t.data := by
  obtain ⟨data, parts⟩ := t
  cases path <;> rfl

/-- The payloads of outlines come one outline after another. -/
theorem payloadsAll_append : payloadsAll (ts ++ us) = payloadsAll ts ++ payloadsAll us := by
  induction ts with
  | nil => rfl
  | cons t rest ih => rw [List.cons_append, payloadsAll, payloadsAll, ih, List.append_assoc]

mutual

/-- An outline has a payload for each of its nodes. -/
theorem length_payloads : ∀ t : Outline, t.payloads.length = t.size
  | .node _ parts => by rw [payloads, List.length_cons, length_payloadsAll parts, size]

/-- Outlines have a payload for each of their nodes. -/
theorem length_payloadsAll : ∀ ts : List Outline, (payloadsAll ts).length = sizeAll ts
  | [] => rfl
  | t :: rest => by
    rw [payloadsAll, List.length_append, length_payloads t, length_payloadsAll rest, sizeAll]

end

/-- A part stands between the parts before it and those behind it. -/
theorem eq_take_append_drop (h : ts[i]? = some t) :
    ts = ts.take i ++ t :: ts.drop (i + 1) := by
  obtain ⟨hi, rfl⟩ := List.getElem?_eq_some_iff.1 h
  rw [← List.drop_eq_getElem_cons hi, List.take_append_drop]

/-- What is modified in a list stands between what is in front of it and what is behind it. -/
theorem modify_eq_take_append_drop (f : Outline → Outline) (h : ts[i]? = some t) :
    ts.modify i f = ts.take i ++ f t :: ts.drop (i + 1) := by
  obtain ⟨hi, rfl⟩ := List.getElem?_eq_some_iff.1 h
  rw [List.modify_eq_take_cons_drop hi]

/-- Where a part gives way, its stretch of the payloads gives way to theirs. -/
theorem payloads_splice (h : t.part? (path ++ [i]) = some old) :
    ∃ before behind, t.payloads = before ++ old.payloads ++ behind ∧
      ∀ stays, (t.splice stays i path).payloads = before ++ payloadsAll stays ++ behind := by
  induction path generalizing t with
  | nil =>
    obtain ⟨data, parts⟩ := t
    have hold : parts[i]? = some old := by rwa [List.nil_append, part?_singleton] at h
    refine ⟨data :: payloadsAll (parts.take i), payloadsAll (parts.drop (i + 1)), ?_, ?_⟩
    · conv_lhs => rw [eq_take_append_drop hold]
      simp only [payloads, payloadsAll_append, payloadsAll, List.cons_append, List.append_assoc]
    · intro stays
      simp only [splice, payloads, payloadsAll_append, List.cons_append, List.append_assoc]
  | cons k path ih =>
    obtain ⟨data, parts⟩ := t
    obtain ⟨u, hu, hold⟩ := part?_cons_eq_some_iff.1 h
    have hu : parts[k]? = some u := hu
    obtain ⟨before, behind, hpayloads, hsplice⟩ := ih hold
    refine ⟨data :: payloadsAll (parts.take k) ++ before,
      behind ++ payloadsAll (parts.drop (k + 1)), ?_, ?_⟩
    · conv_lhs => rw [eq_take_append_drop hu]
      simp only [payloads, payloadsAll_append, payloadsAll, hpayloads, List.cons_append,
        List.append_assoc]
    · intro stays
      rw [splice, modify_eq_take_append_drop _ hu]
      simp only [payloads, payloadsAll_append, payloadsAll, hsplice, List.cons_append,
        List.append_assoc]

/-- A splice takes the nodes of the part away and brings those of the parts that stay. -/
theorem size_splice (h : t.part? (path ++ [i]) = some old) (stays : List Outline) :
    (t.splice stays i path).size + old.size = t.size + sizeAll stays := by
  obtain ⟨before, behind, hpayloads, hsplice⟩ := payloads_splice h
  rw [← length_payloads, hsplice, ← length_payloads t, hpayloads, ← length_payloads old,
    ← length_payloadsAll]
  simp only [List.length_append]
  omega

/-- A part is smaller than what it is a part of. -/
theorem size_lt_of_part (h : t.parts[i]? = some u) : u.size < t.size := by
  obtain ⟨data, parts⟩ := t
  have hu : parts[i]? = some u := h
  have hsum : sizeAll parts = sizeAll (parts.take i) + (u.size + sizeAll (parts.drop (i + 1))) := by
    conv_lhs => rw [eq_take_append_drop hu]
    simp only [← length_payloadsAll, ← length_payloads, payloadsAll_append, payloadsAll,
      List.length_append]
  rw [size, hsum]
  omega

/-- What is read in a part is read, in the same order, in what it is a part of. -/
theorem payloads_sublist_of_part (h : t.parts[i]? = some u) :
    u.payloads.Sublist t.payloads := by
  obtain ⟨data, parts⟩ := t
  have hu : parts[i]? = some u := h
  conv_rhs => rw [eq_take_append_drop hu]
  simp only [payloads, payloadsAll_append, payloadsAll]
  refine List.Sublist.cons _ (List.Sublist.trans ?_ (List.sublist_append_right ..))
  exact List.sublist_append_left ..

end

end ShaderShrink.Outline
