import Hypertemplate.Proofs.Engine.Failures
import Hypertemplate.Proofs.Template.Commute

/-!
# Delayed answers

The answers to the requests of a call arrive in an order that their delays decide. Runs whose targets are
unrelated leave the same page whatever these delays are (`renderings_commute`).
-/

namespace Hypertemplate

open Json

namespace Engine

open Document

variable {e : Engine} {c : Call}

/-- The answers to requests without their delays. -/
def answers (transport : Transport) (pending : List (Binding × Request)) :
    List (Binding × Except TransportFailure Response) :=
  (sendAll transport pending).1.map fun r => (r.1, r.2.answer)

/-- The same answers give the same results, in whatever order. -/
theorem resultsOf_perm_of_answers {transport transport' : Transport} {pending : List (Binding × Request)}
    (h : answers transport pending = answers transport' pending) :
    (resultsOf transport pending).Perm (resultsOf transport' pending) := by
  have hperm : ∀ transport, (resultsOf transport pending).Perm
      ((answers transport pending).map fun r => (r.1, .ofAnswer r.2)) := by
    intro transport
    rw [resultsOf, answers, List.map_map]
    exact (List.mergeSort_perm _ _).map _
  have hthere := hperm transport
  rw [h] at hthere
  exact hthere.trans (hperm transport').symm

/-- The rendering that a run with data ends in. -/
def rendering (gain : Binding × Value) : Rendering :=
  ⟨gain.1.template, gain.2, gain.1.target, gain.1.action⟩

/-- The renderings that the runs of a call end in. -/
def renderings (e : Engine) (c : Call) : List Rendering := ((e.results c).filterMap gain?).map rendering

theorem document_call_eq_renderAll (e : Engine) (c : Call) : (e.call c).document =
    (e.pinning c).document.renderAll e.settings.nestedArrayAttribute (e.renderings c) := by
  rw [document_call, renderings, renderAll, List.foldl_map]
  rfl

/-- What holds of every binding that a call begins runs of holds of what these end in. -/
theorem forall_mem_renderings {P : NodeId → NodeId → Prop} (h : ∀ b ∈ e.begun c, P b.template b.target) :
    ∀ r ∈ e.renderings c, P r.template r.target := by
  intro r hr
  obtain ⟨gain, hgain, rfl⟩ := List.mem_map.mp hr
  exact h gain.1 (mem_begun_of_mem_gains hgain)

theorem pairwise_renderings {R : NodeId → NodeId → Prop} (hsymm : ∀ {i j}, R i j → R j i)
    (h : (e.begun c).Pairwise fun b b' => R b.target b'.target) :
    (e.renderings c).Pairwise fun r u => R r.target u.target := by
  have hresults : ((e.results c).map Prod.fst).Pairwise fun b b' => R b.target b'.target :=
    ((e.results_perm c).pairwise_iff fun hbb => hsymm hbb).mpr h
  rw [List.pairwise_map] at hresults
  rw [renderings, List.pairwise_map, List.pairwise_filterMap]
  refine hresults.imp fun {x y} hxy gain hgain gain' hgain' => ?_
  obtain ⟨v, -, rfl⟩ := Option.map_eq_some_iff.mp hgain
  obtain ⟨v', -, rfl⟩ := Option.map_eq_some_iff.mp hgain'
  exact hxy

theorem wellFormed_pinning_start (html : String) (settings : Settings) (transport : Transport)
    (handlers : Handlers) (journal : Journal) :
    ((onPage html settings transport handlers journal).pinning .start).document.WellFormed := by
  have h := @clean_of_pinBindings (onPage html settings transport handlers journal) (tidy_parse html)
    (pinned_parse html)
  exact h.1.wellFormed

/-- Two renderings of pinned templates into elements of a page of which none is above the other one make the
same page in both orders, with the same number of nodes. So if the targets of the runs of a call are unrelated
in pairs, the page after the call does not depend on the delays of the answers. -/
theorem renderings_commute {d : Document} (h : d.WellFormed) (hroot : d.kind root = .document) :
    (∀ (marker : String) (r u : Rendering), d.Serves r.template r.target → d.Serves u.template u.target →
      r.target ∉ d.ancestors u.target → u.target ∉ d.ancestors r.target →
        ((d.renderOne marker r).renderOne marker u).toHtml =
          ((d.renderOne marker u).renderOne marker r).toHtml ∧
        ((d.renderOne marker r).renderOne marker u).liveNodes =
          ((d.renderOne marker u).renderOne marker r).liveNodes) ∧
    ∀ (e : Engine) (c : Call) (transport : Transport), (e.pinning c).document = d →
      answers transport (e.requests c) = answers e.transport (e.requests c) →
      (∀ b ∈ e.begun c, d.Serves b.template b.target) →
      (e.begun c).Pairwise (fun b b' =>
        b.target ∉ d.ancestors b'.target ∧ b'.target ∉ d.ancestors b.target) →
        (({ e with transport } : Engine).call c).document.toHtml = (e.call c).document.toHtml ∧
        (({ e with transport } : Engine).call c).document.liveNodes =
          (e.call c).document.liveNodes := by
  constructor
  · intro marker r u hr hu hru hur
    have hserves : ∀ x ∈ [r, u], d.Serves x.template x.target := by simp [hr, hu]
    have hperm : [r, u].Perm [u, r] := List.Perm.swap u r []
    exact Document.renderAll_perm h hroot hserves (by simp [hru, hur]) hperm marker
  · intro e c transport hd hanswers hserves hapart
    have hperm : (({ e with transport } : Engine).renderings c).Perm (e.renderings c) := by
      apply List.Perm.map
      apply List.Perm.filterMap
      cases c <;> exact resultsOf_perm_of_answers hanswers
    rw [document_call_eq_renderAll, document_call_eq_renderAll]
    have hpage : (({ e with transport } : Engine).pinning c).document = d := by
      rw [← hd]
      cases c <;> rfl
    rw [hpage, hd]
    apply Document.renderAll_perm h hroot _ _ hperm
    · exact forall_mem_renderings hserves
    · exact pairwise_renderings (R := fun i j => i ∉ d.ancestors j ∧ j ∉ d.ancestors i) And.symm hapart

/-- A page with two templates that load, one into each of two paragraphs, and with answers that arrive in
both orders. -/
theorem renderings_commute_paragraphs :
    let html := "<p id=a></p><p id=b></p><template hx-endpoint=/1 hx-target=#a>x</template>" ++
      "<template hx-endpoint=/2 hx-target=#b hx-action=swap>y</template>"
    let script (first second : Nat) : Transport :=
      .script ((({} : Script).push "GET" "/1" ⟨.ok ⟨200, "1"⟩, first⟩).push
        "GET" "/2" ⟨.ok ⟨200, "2"⟩, second⟩)
    let e := onPage html {} (script 1 2) {} {}
    let d := (e.pinning .start).document
    d.WellFormed ∧ (e.begun .start).map (fun b => (b.template, b.target)) = [(7, 4), (10, 5)] ∧
      ((d.renderOne "" ⟨7, .null, 4, .append⟩).renderOne "" ⟨10, .null, 5, .swap⟩).toHtml =
        ((d.renderOne "" ⟨10, .null, 5, .swap⟩).renderOne "" ⟨7, .null, 4, .append⟩).toHtml ∧
      (({ e with transport := script 2 1 } : Engine).call .start).document.toHtml =
        (e.call .start).document.toHtml := by
  intro html script e d
  have h : d.WellFormed := wellFormed_pinning_start html {} _ {} {}
  have hpage : d.kind root = .document ∧
      (∀ i ∈ [7, 10], i ∈ d.pinned ∧ d.tagName? i = some "template") ∧
      (∀ i ∈ [4, 5], d.isElement i = true ∧ d.isConnected i = true) ∧
      4 ∉ d.ancestors 5 ∧ 5 ∉ d.ancestors 4 ∧
      (e.begun .start).map (fun b => (b.template, b.target)) = [(7, 4), (10, 5)] ∧
      answers (script 2 1) (e.requests .start) = answers e.transport (e.requests .start) := by
    decide +kernel
  obtain ⟨hroot, htemplates, htargets, h45, h54, hbegun, hanswers⟩ := hpage
  have hserves : ∀ template ∈ [7, 10], ∀ target ∈ [4, 5], d.Serves template target := by
    intro template ht target hg
    obtain ⟨hpinned, htag⟩ := htemplates template ht
    obtain ⟨helement, hconnected⟩ := htargets target hg
    exact ⟨hpinned, htag, helement, hconnected⟩
  obtain ⟨htwo, hdelays⟩ := renderings_commute h hroot
  have hserves' : ∀ b ∈ e.begun .start, d.Serves b.template b.target := by
    intro b hb
    have hmem : (b.template, b.target) ∈ [(7, 4), (10, 5)] := by
      rw [← hbegun]
      exact List.mem_map_of_mem hb
    simp only [List.mem_cons, Prod.mk.injEq, List.not_mem_nil, or_false] at hmem
    rcases hmem with ⟨ht, hg⟩ | ⟨ht, hg⟩
    · rw [ht, hg]
      exact hserves 7 (by simp) 4 (by simp)
    · rw [ht, hg]
      exact hserves 10 (by simp) 5 (by simp)
  have hapart : (e.begun .start).Pairwise fun b b' =>
      b.target ∉ d.ancestors b'.target ∧ b'.target ∉ d.ancestors b.target := by
    have hpairs : ([(7, 4), (10, 5)] : List (NodeId × NodeId)).Pairwise fun x y =>
        x.2 ∉ d.ancestors y.2 ∧ y.2 ∉ d.ancestors x.2 := by
      simp [h45, h54]
    rw [← hbegun, List.pairwise_map] at hpairs
    exact hpairs
  refine ⟨h, hbegun, ?_, ?_⟩
  · apply (htwo "" ⟨7, .null, 4, .append⟩ ⟨10, .null, 5, .swap⟩ _ _ h45 h54).1
    · exact hserves 7 (by simp) 4 (by simp)
    · exact hserves 10 (by simp) 5 (by simp)
  · exact (hdelays e .start (script 2 1) rfl hanswers hserves' hapart).1
end Engine

end Hypertemplate
