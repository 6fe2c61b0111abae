import CodeAtlas.Taxonomy

/-!
# Labels that are read back

A kind is known outside by its label: the head of its namespace and the name of its category or verb. A label
is read by trying the namespaces with a head first, and there is no ambiguity in that, since no label begins
with the head of another namespace. So every label names its kind (`NodeKind.ofLabel?_label`,
`RelKind.ofLabel?_label`).

The store keeps one kind of relationship behind an underscore. One underscore in front is dropped before a
label is read (`RelKind.ofLabel?_underscore`), so the labels of the store name their kinds as well
(`RelKind.ofLabel?_storeLabel`).
-/

namespace CodeAtlas

/-! ### Names and heads -/

theorem Category.ofName?_name (c : Category) : ofName? c.name = some c := by
  have hall : ∀ c ∈ all, ofName? c.name = some c := by decide +kernel
  exact hall c c.mem_all

theorem Verb.ofName?_name (v : Verb) : ofName? v.name = some v := by
  have hall : ∀ v ∈ all, ofName? v.name = some v := by decide +kernel
  exact hall v v.mem_all

/-- What a label says behind the head of a namespace, if no other namespace has a head that it begins with. -/
theorem stripPrefix?_label {head : Namespace → String} {name : String} {a b : Namespace}
    (h : (head a).toList <+: (head b).toList ++ name.toList → a = b) :
    Text.stripPrefix? (head a).toList (head b ++ name).toList = if a = b then some name.toList else none := by
  rw [String.toList_append]
  split
  next hab =>
    rw [hab, Text.stripPrefix?_eq_some_iff]
  next hab =>
    rw [Option.eq_none_iff_forall_ne_some]
    intro rest hrest
    exact hab (h ⟨rest, (Text.stripPrefix?_eq_some_iff.1 hrest).symm⟩)

/-- The namespaces with a head are tried, and one of them can answer. -/
theorem findSome?_specific {κ : Type} {f : Namespace → Option κ} {b : Namespace} {k : κ}
    (h : ∀ a ∈ Namespace.specific, f a = if a = b then some k else none) :
    Namespace.specific.findSome? f = if b = .generic then none else some k := by
  have hjava := h .java (by decide)
  have hkotlin := h .kotlin (by decide)
  have hdart := h .dart (by decide)
  cases b <;> simp [Namespace.specific, List.findSome?, hjava, hkotlin, hdart]

/-! ### Kinds of nodes -/

/-- **A label names its kind.** -/
theorem NodeKind.ofLabel?_label (k : NodeKind) : ofLabel? k.label = some k := by
  -- No label begins with the head of another namespace; there are finitely many to look at.
  have hhead : ∀ b : Namespace, ∀ a ∈ Namespace.specific, ∀ c ∈ Category.all,
      a.labelHead.toList <+: b.labelHead.toList ++ c.name.toList → a = b := by
    intro b
    cases b <;> decide +kernel
  have hread : ∀ a ∈ Namespace.specific, ofLabelIn? a k.label = if a = k.space then some k else none := by
    intro a ha
    rw [ofLabelIn?, label, stripPrefix?_label (hhead k.space a ha k.category k.category.mem_all)]
    by_cases hspace : a = k.space
    · simp [hspace, Category.ofName?_name]
    · simp [hspace]
  rw [ofLabel?, findSome?_specific hread]
  -- A generic label has no head, and is read when no other namespace is found.
  by_cases hspace : k.space = .generic
  · have hlabel : k.label = k.category.name := by simp [label, hspace, Namespace.labelHead]
    rw [if_pos hspace, hlabel]
    simp [Category.ofName?_name, generic, ← hspace]
  · rw [if_neg hspace]

/-! ### Kinds of relationships -/

namespace RelKind

/-- One underscore in front of a label without one does not matter. -/
theorem ofLabel?_underscore {label : String} (h : Text.stripPrefix? ['_'] label.toList = none) :
    ofLabel? ("_" ++ label) = ofLabel? label := by
  have hstrip : Text.stripPrefix? ['_'] ("_" ++ label).toList = some label.toList := by
    rw [Text.stripPrefix?_eq_some_iff, String.toList_append]
    rfl
  unfold ofLabel?
  simp only [h, hstrip, String.ofList_toList]

/-- No label begins with an underscore. -/
theorem stripPrefix?_underscore (k : RelKind) : Text.stripPrefix? ['_'] k.label.toList = none := by
  have hall : ∀ b : Namespace, ∀ v ∈ Verb.all,
      Text.stripPrefix? ['_'] (b.verbHead.toList ++ v.name.toList) = none := by
    intro b
    cases b <;> decide +kernel
  rw [label, String.toList_append]
  exact hall k.space k.verb k.verb.mem_all

/-- **A label names its kind.** -/
theorem ofLabel?_label (k : RelKind) : ofLabel? k.label = some k := by
  -- The same check as for the labels of nodes.
  have hhead : ∀ b : Namespace, ∀ a ∈ Namespace.specific, ∀ v ∈ Verb.all,
      a.verbHead.toList <+: b.verbHead.toList ++ v.name.toList → a = b := by
    intro b
    cases b <;> decide +kernel
  have hread : ∀ a ∈ Namespace.specific, ofLabelIn? a k.label = if a = k.space then some k else none := by
    intro a ha
    rw [ofLabelIn?, label, stripPrefix?_label (hhead k.space a ha k.verb k.verb.mem_all)]
    by_cases hspace : a = k.space
    · simp [hspace, Verb.ofName?_name]
    · simp [hspace]
  unfold ofLabel?
  simp only [k.stripPrefix?_underscore, findSome?_specific hread]
  by_cases hspace : k.space = .generic
  · have hlabel : k.label = k.verb.name := by simp [label, hspace, Namespace.verbHead]
    rw [if_pos hspace, hlabel]
    simp [Verb.ofName?_name, generic, ← hspace]
  · rw [if_neg hspace]

/-- **The label in the store names the kind.** -/
theorem ofLabel?_storeLabel (k : RelKind) : ofLabel? k.storeLabel = some k := by
  unfold storeLabel
  split
  · rw [ofLabel?_underscore k.stripPrefix?_underscore, ofLabel?_label]
  · exact k.ofLabel?_label

theorem storeLabel_injective {j k : RelKind} (h : j.storeLabel = k.storeLabel) : j = k := by
  have hj := ofLabel?_storeLabel j
  rw [h, ofLabel?_storeLabel] at hj
  exact (Option.some.inj hj).symm

end RelKind

end CodeAtlas
