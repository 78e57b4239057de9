import EarleyChart.Grammar.Graph
import EarleyChart.Proofs.Forest.Drawing
import EarleyChart.Proofs.Text.Diagram

/-!
The quoted strings of the two diagrams. A grammar's diagram escapes the names of
its symbols, so that they are read back whatever characters they have. A forest's
diagram writes the names as they are: the label of an item is one string just
where no name of its rule has a quote that ends it.
-/

namespace EarleyChart

open Dot

namespace Grammar

def namesOf (g : Grammar) (rule : RuleId) : List String :=
  (g.rule? rule).elim [] fun r => (r.lhs :: r.rhs).map g.symbolName

def placeLabel (rule : RuleId) (position : Nat) : String :=
  "r" ++ toString rule ++ "." ++ toString position

def labels (g : Grammar) : List String :=
  g.terminalIds.map (fun symbol => escaped (g.symbolName symbol)) ++
    g.nonterminalIds.map (fun symbol => escaped (g.symbolName symbol)) ++
    g.rules.toList.zipIdx.flatMap fun (rule, index) =>
      rule.rhs.zipIdx.map fun (_, position) => placeLabel index position

theorem shows_symbolNode (g : Grammar) {shape : String} (hshape : Inert shape) (symbol : SymbolId) :
    Shows (g.symbolNode shape symbol) [escaped (g.symbolName symbol)] := by
  have htext : g.symbolNode shape symbol = "  s" ++ toString symbol ++ " [label=" ++
      quoted (g.symbolName symbol) ++ ", shape=" ++ shape ++ "]\n" := rfl
  have hhead : Inert ("  s" ++ toString symbol ++ " [label=") :=
    ((show Inert "  s" by decide).append (inert_toString symbol)).append (by decide)
  rw [htext, quoted_eq]
  exact (((hhead.append_shows (shows_quotes _)).append_inert (by decide)).append_inert
    hshape).append_inert (by decide)

theorem shows_ruleEdges (rule : Rule) (index : RuleId) :
    Shows (ruleEdges rule index) (rule.rhs.zipIdx.map fun (_, position) =>
      placeLabel index position) := by
  refine Shows.join_map fun (symbol, position) _ => ?_
  have hhead : Inert ("  s" ++ toString rule.lhs ++ " -> s" ++ toString symbol ++ " [label=") :=
    ((((show Inert "  s" by decide).append (inert_toString _)).append (by decide)).append
      (inert_toString _)).append (by decide)
  have hshows := (hhead.append_shows (shows_quotes (placeLabel index position))).append_inert
    (show Inert "]\n" by decide)
  have htext : "  s" ++ toString rule.lhs ++ " -> s" ++ toString symbol ++ " [label=" ++
      ("\"" ++ placeLabel index position ++ "\"") ++ "]\n" = "  s" ++ toString rule.lhs ++
      " -> s" ++ toString symbol ++ " [label=\"r" ++ toString index ++ "." ++ toString position ++
      "\"]\n" := by
    rw [← String.toList_inj, placeLabel]
    simp [String.toList_append]
  rw [htext] at hshows
  exact hshows

theorem shows_toDot (g : Grammar) : Shows g.toDot g.labels := by
  have hterminals : Shows (String.join (g.terminalIds.map (g.symbolNode "ellipse")))
      (g.terminalIds.map fun symbol => escaped (g.symbolName symbol)) :=
    Shows.join_map fun symbol _ => g.shows_symbolNode (by decide) symbol
  have hnonterminals : Shows (String.join (g.nonterminalIds.map (g.symbolNode "box")))
      (g.nonterminalIds.map fun symbol => escaped (g.symbolName symbol)) :=
    Shows.join_map fun symbol _ => g.shows_symbolNode (by decide) symbol
  have hedges : Shows (String.join (g.rules.toList.zipIdx.map fun (rule, index) =>
        ruleEdges rule index))
      (g.rules.toList.zipIdx.flatMap fun (rule, index) =>
        rule.rhs.zipIdx.map fun (_, position) => placeLabel index position) :=
    Shows.join fun (rule, index) _ => shows_ruleEdges rule index
  have hstart : Inert ("  s" ++ toString g.start ++ " [style=filled, fillcolor=lightblue]\n") :=
    ((show Inert "  s" by decide).append (inert_toString _)).append (by decide)
  have hhead : Inert ("digraph Grammar \x7b\n" ++ "  rankdir=TB;\n") := by decide
  have hend : Inert "\x7d\n" := by decide
  have htext : g.toDot = "digraph Grammar \x7b\n" ++ "  rankdir=TB;\n" ++
      String.join (g.terminalIds.map (g.symbolNode "ellipse")) ++
      String.join (g.nonterminalIds.map (g.symbolNode "box")) ++
      String.join (g.rules.toList.zipIdx.map fun (rule, index) => ruleEdges rule index) ++
      ("  s" ++ toString g.start ++ " [style=filled, fillcolor=lightblue]\n") ++ "\x7d\n" := rfl
  rw [htext, labels]
  exact ((((hhead.append_shows hterminals).append hnonterminals).append hedges).append_inert
    hstart).append_inert hend

theorem closed_labels (g : Grammar) : ∀ label ∈ g.labels, Closed label := by
  intro label hlabel
  rw [labels, List.mem_append, List.mem_append] at hlabel
  rcases hlabel with (hlabel | hlabel) | hlabel
  · obtain ⟨symbol, -, rfl⟩ := List.mem_map.mp hlabel
    exact escaped_closed _
  · obtain ⟨symbol, -, rfl⟩ := List.mem_map.mp hlabel
    exact escaped_closed _
  · obtain ⟨⟨rule, index⟩, -, hlabel⟩ := List.mem_flatMap.mp hlabel
    obtain ⟨⟨symbol, position⟩, -, rfl⟩ := List.mem_map.mp hlabel
    exact ((((show Inert "r" by decide).append (inert_toString _)).append (by decide)).append
      (inert_toString _)).closed

/-- The parts of a rule behind its left-hand side. A backslash before them is of no
consequence, and they end the label just where one of their names does. -/
theorem closed_parts (g : Grammar) (dot : Option Nat) (tail : String) (htail : Resets tail)
    (parts : List (SymbolId × Nat)) :
    Resets (String.join (parts.map fun (symbol, position) =>
        (if dot = some position then " *" else "") ++ " " ++ g.symbolName symbol) ++ tail) ∧
      (Closed (String.join (parts.map fun (symbol, position) =>
        (if dot = some position then " *" else "") ++ " " ++ g.symbolName symbol) ++ tail) ↔
        (∀ part ∈ parts, Quotable (g.symbolName part.1)) ∧ Closed tail) := by
  induction parts with
  | nil => exact ⟨by simpa using htail, by simp⟩
  | cons part parts ih =>
      obtain ⟨hresets, hclosed⟩ := ih
      have hstar : Resets ((if dot = some part.2 then " *" else "") ++ " ") ∧
          Inert ((if dot = some part.2 then " *" else "") ++ " ") := by
        split <;> exact ⟨by decide, by decide⟩
      rw [List.map_cons, String.join_cons, String.append_assoc, String.append_assoc]
      refine ⟨hstar.1.append _, ?_⟩
      rw [hstar.2.closed_append_iff, hresets.closed_append_iff, hclosed, List.forall_mem_cons,
        and_assoc]

/-- A rule ends the label that it is written into just where one of its names does. -/
theorem closed_dotted (g : Grammar) (rule : RuleId) (dot : Option Nat) {tail : String}
    (htail : Resets tail) (hclosed : Closed tail) :
    Closed (g.dotted rule dot ++ tail) ↔ ∀ name ∈ g.namesOf rule, Quotable name := by
  rw [dotted, namesOf]
  cases g.rule? rule with
  | none => simpa using hclosed
  | some r =>
      have hend : Resets ((if dot = some r.rhs.length then " *" else "") ++ tail) ∧
          Closed ((if dot = some r.rhs.length then " *" else "") ++ tail) := by
        split
        · exact ⟨(show Resets " *" by decide).append tail,
            ((show Inert " *" by decide).closed_append_iff _).mpr hclosed⟩
        · simpa using ⟨htail, hclosed⟩
      obtain ⟨-, hparts⟩ := g.closed_parts dot _ hend.1 r.rhs.zipIdx
      have hnames : (∀ part ∈ r.rhs.zipIdx, Quotable (g.symbolName part.1)) ↔
          ∀ symbol ∈ r.rhs, Quotable (g.symbolName symbol) := by
        conv => rhs; rw [← List.zipIdx_map_fst 0 r.rhs]
        rw [List.forall_mem_map]
      have htext : g.dottedRule r dot ++ tail = g.symbolName r.lhs ++ (" -->" ++
          (String.join (r.rhs.zipIdx.map fun (symbol, position) =>
            (if dot = some position then " *" else "") ++ " " ++ g.symbolName symbol) ++
          ((if dot = some r.rhs.length then " *" else "") ++ tail))) := by
        simp only [dottedRule, String.append_assoc]
        rfl
      rw [Option.elim_some, Option.elim_some, htext,
        ((show Resets " -->" by decide).append _).closed_append_iff,
        (show Inert " -->" by decide).closed_append_iff, hparts, hnames, List.forall_mem_map,
        List.forall_mem_cons]
      exact and_congr_right fun _ => and_iff_left hend.2

end Grammar

namespace Forest

def DiagramLine.strings (g : Grammar) : DiagramLine → List String
  | .node id item => [id.render, nodeLabel g id item]
  | .edge source target _ => [source.render, target.render]
  | .filled root => [root.render]

theorem inert_render (id : ItemId) : Inert id.render :=
  ((inert_toString _).append (by decide)).append (inert_toString _)

/-- The label of an item is one string just where no name of its rule ends it. -/
theorem closed_nodeLabel (g : Grammar) (id : ItemId) (item : Item) :
    Closed (nodeLabel g id item) ↔ ∀ name ∈ g.namesOf item.rule, Quotable name := by
  have hcost : Inert (toString item.errorCost) := inert_toString _
  have htail : Resets ("\\ncost " ++ toString item.errorCost) :=
    (show Resets "\\ncost " by decide).append _
  rw [nodeLabel, String.append_assoc, String.append_assoc,
    ((inert_render id).append (show Inert ": " by decide)).closed_append_iff]
  refine g.closed_dotted item.rule _ htail ?_
  rw [Closed, String.toList_append, scan_append]
  exact hcost.closed

/-- The styles of edges. -/
theorem inert_style {f : Forest} {ids : List ItemId} {source target : ItemId} {style : String}
    (hedge : .edge source target style ∈ f.diagramLines ids) : Inert style := by
  obtain ⟨-, item, -, link, -, ⟨-, rfl⟩ | ⟨-, rfl⟩⟩ := edge_cases hedge
  · rw [leftStyle]
    cases link.step <;> decide
  · decide

theorem shows_text (g : Grammar) (line : DiagramLine)
    (hstyle : ∀ source target style, line = .edge source target style → Inert style) :
    Shows (line.text g) (line.strings g) := by
  cases line with
  | node id item =>
      have htext : (DiagramLine.node id item).text g = "  " ++ ("\"" ++ id.render ++ "\"") ++
          (" [label=" ++ ("\"" ++ nodeLabel g id item ++ "\"") ++ "]\n") := by
        rw [← String.toList_inj, DiagramLine.text]
        simp [String.toList_append]
      rw [htext]
      exact ((show Inert "  " by decide).append_shows (shows_quotes _)).append
        (((show Inert " [label=" by decide).append_shows (shows_quotes _)).append_inert
          (by decide))
  | edge source target style =>
      have htext : (DiagramLine.edge source target style).text g = "  " ++
          ("\"" ++ source.render ++ "\"") ++ (" -> " ++ ("\"" ++ target.render ++ "\"") ++
          " [style=" ++ style ++ "]\n") := by
        rw [← String.toList_inj, DiagramLine.text]
        simp [String.toList_append]
      rw [htext]
      exact ((show Inert "  " by decide).append_shows (shows_quotes _)).append
        (((((show Inert " -> " by decide).append_shows (shows_quotes _)).append_inert
          (by decide)).append_inert (hstyle _ _ _ rfl)).append_inert (by decide))
  | filled root =>
      have htext : (DiagramLine.filled root).text g = "  " ++ ("\"" ++ root.render ++ "\"") ++
          " [style=filled, fillcolor=lightblue]\n" := by
        rw [← String.toList_inj, DiagramLine.text]
        simp [String.toList_append]
      rw [htext]
      exact ((show Inert "  " by decide).append_shows (shows_quotes _)).append_inert (by decide)

/-- The diagram of some items is read back as its strings just where no name of their
rules ends a label. -/
theorem strings_diagram_iff (f : Forest) (ids : List ItemId) :
    strings (diagramHead ++
        String.join ((f.diagramLines ids).map (DiagramLine.text f.grammar)) ++ "\x7d\n") =
        some ((f.diagramLines ids).flatMap (DiagramLine.strings f.grammar)) ↔
      ∀ id item, .node id item ∈ f.diagramLines ids →
        ∀ name ∈ f.grammar.namesOf item.rule, Quotable name := by
  have hlines : Shows (String.join ((f.diagramLines ids).map (DiagramLine.text f.grammar)))
      ((f.diagramLines ids).flatMap (DiagramLine.strings f.grammar)) := by
    refine Shows.join fun line hline => shows_text _ _ ?_
    rintro source target style rfl
    exact inert_style hline
  have hshows := ((show Inert diagramHead by decide).append_shows hlines).append_inert
    (show Inert "\x7d\n" by decide)
  rw [hshows.strings_iff]
  constructor
  · intro hclosed id item hnode
    rw [← closed_nodeLabel _ id]
    exact hclosed _ (List.mem_flatMap.mpr ⟨_, hnode, by simp [DiagramLine.strings]⟩)
  · intro hnames body hbody
    obtain ⟨line, hline, hbody⟩ := List.mem_flatMap.mp hbody
    cases line with
    | node id item =>
        rcases List.mem_pair.mp hbody with rfl | rfl
        · exact (inert_render id).closed
        · exact (closed_nodeLabel f.grammar id item).mpr (hnames id item hline)
    | edge source target style =>
        rcases List.mem_pair.mp hbody with rfl | rfl
        · exact (inert_render source).closed
        · exact (inert_render target).closed
    | filled root =>
        obtain rfl := List.mem_singleton.mp hbody
        exact (inert_render root).closed

end Forest

namespace Parser

open Forest

/-- A grammar's diagram is read back as its labels, whatever characters the names
have. In the diagram of an accepted run the label of an item is one string just where
no name of its rule ends it, and the whole is read back as its strings just where
this holds of all items. -/
theorem diagram_strings (d : GrammarDef) (g : Grammar) (hd : d.toGrammar = .ok g) :
    strings g.toDot = some g.labels ∧
      ∀ p, Reached g p → ∀ f, p.forest? = some f → ∃ ids, f.Reaches ids ∧
        f.toDot = diagramHead ++
          String.join ((f.diagramLines ids).map (DiagramLine.text g)) ++ "\x7d\n" ∧
        (∀ id item, .node id item ∈ f.diagramLines ids →
          (Closed (nodeLabel g id item) ↔ ∀ name ∈ g.namesOf item.rule, Quotable name)) ∧
        (strings f.toDot = some ((f.diagramLines ids).flatMap (DiagramLine.strings g)) ↔
          ∀ id item, .node id item ∈ f.diagramLines ids →
            ∀ name ∈ g.namesOf item.rule, Quotable name) := by
  have hg := d.toGrammar_numbered g hd
  refine ⟨g.shows_toDot.strings_iff.mpr g.closed_labels, fun p hp f hf => ?_⟩
  obtain ⟨rfl, hc⟩ := hp.forest_valid hg hf
  obtain ⟨ids, hids, hdot, -⟩ := f.exists_reaches hg hc
  refine ⟨ids, hids, hdot, fun id item _ => closed_nodeLabel _ id item, ?_⟩
  rw [hdot]
  exact f.strings_diagram_iff ids

def slashDef : GrammarDef := (GrammarDef.empty.terminal "\\").rule "S" ["\\"]

def slash : Grammar where
  terminals := [⟨"\\", 0⟩]
  nonterminals := ["S"]
  rules := #[⟨2, [1]⟩]
  start := 2

/-- A backslash is doubled in the diagram of a grammar, and does no harm in that of a
forest, where it takes the character behind it. -/
theorem diagram_strings_slash : slashDef.toGrammar = .ok slash ∧
    strings slash.toDot = some ["\\\\", "S", "r0.0"] ∧
    ∃ f, ((new slash).parse (TokenStream.ofList [⟨0, "\\", .start⟩])).parser.forest? = some f ∧
      ∃ ids, f.Reaches ids ∧
        strings f.toDot = some ((f.diagramLines ids).flatMap (DiagramLine.strings slash)) := by
  obtain ⟨hgrammar, hforests⟩ := diagram_strings slashDef slash rfl
  have hforest := forest?_of_accepted (show ((new slash).parse
    (TokenStream.ofList [⟨0, "\\", .start⟩])).parser.state = .accepted by decide +kernel)
  obtain ⟨ids, hids, -, -, hread⟩ := hforests _ (.parse (.created .standard) _) _ hforest
  refine ⟨rfl, ?_, _, hforest, ids, hids, hread.mpr fun id item _ => ?_⟩
  · rw [hgrammar]
    decide +kernel
  · have hrules : ∀ r ∈ slash.rules.toList, ∀ name ∈ (r.lhs :: r.rhs).map slash.symbolName,
        Quotable name := by
      decide +kernel
    rw [Grammar.namesOf]
    cases hrule : slash.rule? item.rule with
    | none => exact List.forall_mem_nil _
    | some r => exact hrules r (Array.mem_toList_iff.mpr (Array.mem_of_getElem? hrule))

def quoteDef : GrammarDef := (GrammarDef.empty.terminal "\"").rule "S" ["\""]

def quote : Grammar where
  terminals := [⟨"\"", 0⟩]
  nonterminals := ["S"]
  rules := #[⟨2, [1]⟩]
  start := 2

/-- The name of the terminal ends the label of the root, and a string is left open on
its line. -/
theorem root_label_cut : quoteDef.toGrammar = .ok quote ∧
    ∃ f item, ((new quote).parse (TokenStream.ofList [⟨0, "\"", .start⟩])).parser.forest? = some f ∧
      f.roots = [⟨1, 0⟩] ∧ f.item? ⟨1, 0⟩ = some item ∧
      ¬ Closed (nodeLabel quote ⟨1, 0⟩ item) ∧
      strings ((DiagramLine.node ⟨1, 0⟩ item).text quote) = none := by
  refine ⟨rfl, _, ⟨0, 1, 0, 0, 1, 0, [⟨.scanned, ⟨0, 0⟩, none⟩]⟩,
    forest?_of_accepted (by decide +kernel), ?_, ?_, ?_, ?_⟩ <;> decide +kernel

end Parser
end EarleyChart
