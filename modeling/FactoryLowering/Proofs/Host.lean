import FactoryLowering.Proofs.Tree.Place
import FactoryLowering.Scope

/-! # Hosts along a path

The scopes that are open at a place follow from the path of the place alone. So does its host, the
innermost enclosure that may declare a helper.
-/
namespace FactoryLowering

/-- The scopes that a walk has open at a path. -/
def scopesAt (package : String) : Path → ScopeStack
  | [] => { package }
  | .type d site :: outer => (scopesAt package outer).enter d site
  | .anonymous head _ :: outer => (scopesAt package outer).enterAnonymous head

def hostsHere (package : String) (p : Path) : Bool :=
  (scopesAt package p).current?.any (·.canHost)

/-- How many enclosures there are from the host of a path outward, and none without a host. The
enclosures of one place differ in this number, so it tells which of them is the host. -/
def hostDepth (package : String) : Path → Nat
  | [] => 0
  | e :: outer =>
    if hostsHere package (e :: outer) then outer.length + 1 else hostDepth package outer

def hostAt (package : String) (p : Path) : Option (NodeId × String) :=
  (scopesAt package p).host?.bind fun scope => scope.fqn.map fun fqn => (scope.id, fqn)

def hostIds (package : String) (p : Path) : List NodeId :=
  ((scopesAt package p).frames.filter (·.canHost)).map (·.id)

variable {package : String} {p q : Path} {e : Enclosure} {d : TypeDecl} {site : TypeSite}

theorem hostDepth_cons_of_hostsHere (h : hostsHere package (e :: p) = true) :
    hostDepth package (e :: p) = p.length + 1 := by
  rw [hostDepth, if_pos h]

theorem hostDepth_cons_of_not_hostsHere (h : hostsHere package (e :: p) = false) :
    hostDepth package (e :: p) = hostDepth package p := by
  rw [hostDepth, if_neg (by simp [h])]

theorem hostDepth_le (package : String) (p : Path) : hostDepth package p ≤ p.length := by
  induction p with
  | nil => exact Nat.le_refl 0
  | cons e p ih =>
    cases here : hostsHere package (e :: p) with
    | true => rw [hostDepth_cons_of_hostsHere here]; simp
    | false => rw [hostDepth_cons_of_not_hostsHere here]; exact Nat.le_succ_of_le ih

theorem hostDepth_mono (h : p <:+ q) : hostDepth package p ≤ hostDepth package q := by
  obtain ⟨inner, rfl⟩ := h
  induction inner with
  | nil => exact Nat.le_refl _
  | cons e inner ih =>
    cases here : hostsHere package (e :: (inner ++ p)) with
    | true =>
      have hle := hostDepth_le package p
      rw [List.cons_append, hostDepth_cons_of_hostsHere here, List.length_append]
      omega
    | false =>
      rw [List.cons_append, hostDepth_cons_of_not_hostsHere here]
      exact ih

theorem hostDepth_ne_of_not_hostsHere (here : hostsHere package (e :: p) = false)
    (h : e :: p <:+ q) : hostDepth package q ≠ p.length + 1 := by
  obtain ⟨inner, rfl⟩ := h
  induction inner with
  | nil =>
    have hle := hostDepth_le package p
    rw [List.nil_append, hostDepth_cons_of_not_hostsHere here]
    omega
  | cons i inner ih =>
    cases there : hostsHere package (i :: (inner ++ e :: p)) with
    | true =>
      rw [List.cons_append, hostDepth_cons_of_hostsHere there]
      simp only [List.length_append, List.length_cons]
      omega
    | false =>
      rw [List.cons_append, hostDepth_cons_of_not_hostsHere there]
      exact ih

theorem hostsHere_anonymous (head : ClassHead) (ms : List Member) :
    hostsHere package (.anonymous head ms :: p) = false := rfl

theorem exists_name_of_hostsHere (h : hostsHere package (.type d site :: p) = true) :
    ∃ fqn, hostAt package (.type d site :: p) = some (d.id, fqn) := by
  simp only [hostsHere, scopesAt, ScopeStack.enter, ScopeStack.current?, List.head?_cons,
    Option.any_some, Bool.and_eq_true] at h
  obtain ⟨fqn, hfqn⟩ := Option.isSome_iff_exists.mp h.1
  exact ⟨fqn, by simp [hostAt, scopesAt, ScopeStack.enter, ScopeStack.host?, hfqn, h.2]⟩

theorem hostAt_of_not_hostsHere (h : hostsHere package (e :: p) = false) :
    hostAt package (e :: p) = hostAt package p := by
  cases e with
  | type d site =>
    simp only [hostsHere, scopesAt, ScopeStack.enter, ScopeStack.current?, List.head?_cons,
      Option.any_some] at h
    simp only [hostAt, scopesAt, ScopeStack.enter, ScopeStack.host?, List.find?_cons, h]
  | anonymous head ms => rfl

theorem hostAt_eq_none_iff : hostAt package p = none ↔ hostDepth package p = 0 := by
  induction p with
  | nil => simp [hostAt, hostDepth, scopesAt, ScopeStack.host?]
  | cons e p ih =>
    cases here : hostsHere package (e :: p) with
    | false => rw [hostAt_of_not_hostsHere here, hostDepth_cons_of_not_hostsHere here, ih]
    | true =>
      cases e with
      | type d site =>
        obtain ⟨fqn, hfqn⟩ := exists_name_of_hostsHere here
        rw [hfqn, hostDepth_cons_of_hostsHere here]
        simp
      | anonymous head ms => cases here

theorem hostIds_type : hostIds package (.type d site :: p) =
    if hostsHere package (.type d site :: p) then d.id :: hostIds package p
    else hostIds package p := by
  simp only [hostIds, hostsHere, scopesAt, ScopeStack.enter, ScopeStack.current?, List.head?_cons,
    Option.any_some, List.filter_cons]
  exact apply_ite (List.map Scope.id) _ _ _

theorem mem_hostIds_of_hostAt {host : NodeId} {fqn : String}
    (h : hostAt package p = some (host, fqn)) : host ∈ hostIds package p := by
  simp only [hostAt, Option.bind_eq_some_iff, Option.map_eq_some_iff, Prod.mk.injEq] at h
  obtain ⟨scope, hscope, _, _, rfl, _⟩ := h
  exact List.mem_map.mpr ⟨scope, List.mem_filter.mpr
    ⟨List.mem_of_find?_eq_some hscope, List.find?_some hscope⟩, rfl⟩

theorem exists_type_of_mem_hostIds {id : NodeId} (h : id ∈ hostIds package p) :
    ∃ d site, .type d site ∈ p ∧ d.id = id := by
  induction p with
  | nil => simp [hostIds, scopesAt] at h
  | cons e p ih =>
    cases e with
    | anonymous head ms =>
      obtain ⟨d, site, hd, rfl⟩ := ih h
      exact ⟨d, site, List.mem_cons_of_mem _ hd, rfl⟩
    | type d' site' =>
      have outer (h : id ∈ hostIds package p) :
          ∃ d site, .type d site ∈ .type d' site' :: p ∧ d.id = id := by
        obtain ⟨d, site, hd, rfl⟩ := ih h
        exact ⟨d, site, List.mem_cons_of_mem _ hd, rfl⟩
      rw [hostIds_type] at h
      split at h
      · rcases List.mem_cons.mp h with rfl | h
        · exact ⟨d', site', List.mem_cons_self, rfl⟩
        · exact outer h
      · exact outer h

end FactoryLowering
