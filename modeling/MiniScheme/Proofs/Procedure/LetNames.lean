import MiniScheme.Procedure.Formals

/-!
# The names of a `let` as parameters

A `let` makes a parameter list of the names that it binds. As long as the marker of
optional parameters is not among them, they are all required, and there is one value
for each. The marker is not a parameter: where it is among the names there is one
value too many, whatever stands before it and after it.

* `Formals.ofNames_eq` — names without the marker are required;
* `Formals.ofNames_of_nodup` — different names are a parameter list, and as many values
  as there are names fit it unless the marker is one of them.
-/

namespace MiniScheme.Formals

variable {f g : Formals} {required optional names : List String}

/-- Names declared without the marker are required, in their order. -/
theorem declareAll_eq (h : f.declareAll false names = .ok g) (hMarker : optionalMarker ∉ names) :
    g = { f with required := f.required ++ names } := by
  induction names generalizing f with
  | nil =>
    cases h
    rw [List.append_nil]
  | cons name names ih =>
    have hName : optionalMarker ≠ name := List.ne_of_not_mem_cons hMarker
    have hNames : optionalMarker ∉ names := List.not_mem_of_not_mem_cons hMarker
    rw [declareAll, declare, if_neg (Ne.symm hName)] at h
    split at h
    · rename_i f' seen hDeclare
      split at hDeclare
      · cases hDeclare
      · cases hDeclare
        rw [ih h hNames, List.append_assoc, List.singleton_append]
    · cases h

/-- Names without the marker are all required. -/
theorem ofNames_eq (h : ofNames names = .ok f) (hMarker : optionalMarker ∉ names) :
    f = ⟨names, [], none⟩ :=
  declareAll_eq h hMarker

/-- Different names before the marker, or without one, are required. -/
theorem declareAll_required (rest : List String) (hNodup : (required ++ names).Nodup)
    (hMarker : optionalMarker ∉ names) :
    (⟨required, [], none⟩ : Formals).declareAll false (names ++ rest) =
      (⟨required ++ names, [], none⟩ : Formals).declareAll false rest := by
  induction names generalizing required with
  | nil => rw [List.append_nil, List.nil_append]
  | cons name names ih =>
    have hName : optionalMarker ≠ name := List.ne_of_not_mem_cons hMarker
    have hNames : optionalMarker ∉ names := List.not_mem_of_not_mem_cons hMarker
    have hSplit : required ++ name :: names = (required ++ [name]) ++ names := by simp
    have hNew : name ∉ (⟨required, [], none⟩ : Formals).names := by
      rw [List.nodup_append] at hNodup
      intro hMem
      have hOld : name ∈ required := by simpa [Formals.names, positional] using hMem
      exact hNodup.2.2 name hOld name List.mem_cons_self rfl
    rw [List.cons_append, declareAll, declare, if_neg (Ne.symm hName), if_neg hNew, hSplit]
    exact ih (hSplit ▸ hNodup) hNames

/-- Different names after the marker are optional. -/
theorem declareAll_optional (hNodup : (required ++ optional ++ names).Nodup)
    (hMarker : optionalMarker ∉ names) :
    (⟨required, optional, none⟩ : Formals).declareAll true names =
      .ok ⟨required, optional ++ names, none⟩ := by
  induction names generalizing optional with
  | nil => rw [List.append_nil]; rfl
  | cons name names ih =>
    have hName : optionalMarker ≠ name := List.ne_of_not_mem_cons hMarker
    have hNames : optionalMarker ∉ names := List.not_mem_of_not_mem_cons hMarker
    have hSplit : optional ++ name :: names = (optional ++ [name]) ++ names := by simp
    have hNew : name ∉ (⟨required, optional, none⟩ : Formals).names := by
      rw [List.nodup_append] at hNodup
      intro hMem
      have hOld : name ∈ required ++ optional := by simpa [Formals.names, positional] using hMem
      exact hNodup.2.2 name hOld name List.mem_cons_self rfl
    rw [declareAll, declare, if_neg (Ne.symm hName), if_neg hNew, if_pos rfl, hSplit]
    refine ih ?_ hNames
    rw [List.append_assoc, hSplit, ← List.append_assoc] at hNodup
    exact hNodup

/-- Different names are a parameter list. As many values as there are names fit it,
unless the marker is one of them. -/
theorem ofNames_of_nodup (hNodup : names.Nodup) :
    ∃ f, ofNames names = .ok f ∧
      (f.arity.accepts names.length = true ↔ optionalMarker ∉ names) := by
  by_cases hMarker : optionalMarker ∈ names
  · obtain ⟨before, after, rfl⟩ := List.append_of_mem hMarker
    obtain ⟨hBefore, hAfter, hApart⟩ := List.nodup_append.mp hNodup
    obtain ⟨hOnce, hAfter⟩ := List.nodup_cons.mp hAfter
    have hNotBefore : optionalMarker ∉ before :=
      fun hMem => hApart _ hMem _ List.mem_cons_self rfl
    have hNames : (before ++ [] ++ after).Nodup := by
      rw [List.append_nil]
      exact List.Nodup.sublist
        (List.Sublist.append_left (List.sublist_cons_self _ _) before) hNodup
    refine ⟨⟨before, after, none⟩, ?_, ?_⟩
    · rw [ofNames, empty, declareAll_required _ (by rwa [List.nil_append]) hNotBefore,
        List.nil_append, declareAll, declare, if_pos rfl]
      exact declareAll_optional hNames hOnce
    · -- one less positional name than there are names
      refine iff_of_false (fun hAccepts => ?_) (not_not_intro hMarker)
      unfold arity at hAccepts
      simp only [List.length_append, List.length_cons, positional] at hAccepts
      split at hAccepts
      · have hCount := of_decide_eq_true hAccepts
        omega
      · simp only [Arity.accepts, Bool.and_eq_true, decide_eq_true_eq] at hAccepts
        omega
  · have hRequired : ofNames (names ++ []) =
        (⟨[] ++ names, [], none⟩ : Formals).declareAll false [] :=
      declareAll_required [] (by rwa [List.nil_append]) hMarker
    rw [List.append_nil] at hRequired
    refine ⟨⟨names, [], none⟩, hRequired, iff_of_true ?_ hMarker⟩
    exact decide_eq_true rfl

end MiniScheme.Formals
