import Mathlib.Data.List.Permutation
import NodeFleet.Fleet.OrdinalSet
import NodeFleet.Proofs.Fleet.DesiredPods
import NodeFleet.Proofs.Resource.Shapes

/-!
# What the digest of a pod stands for

The text whose digest a pod carries is the text of its specification and that of its labels, one
after the other.  Of two full nodes of one name it is the same exactly if they agree in all that
their pods are made of.
-/

namespace NodeFleet.Resource

open Json Fleet

/-! ## Parts of the text -/

theorem writePassed_nil (fields : List (Option (String × Json))) :
    writePassed fields [] = Json.ofFields fields := by
  rw [Resource.writePassed, List.append_nil, Json.ofFields]

theorem Container.get?_write (container : Container) (unpassed : container.passed = []) :
    container.write.get? "image" = container.image.map .text ∧
      container.write.get? "imagePullPolicy" = container.imagePullPolicy.map .text ∧
      container.write.get? "args" = container.args.map writeTexts ∧
      container.write.get? "env" = container.env.map .array ∧
      container.write.get? "resources" = container.resources ∧
      container.write.get? "volumeMounts" =
        container.volumeMounts.map (Json.ofList VolumeMount.write) := by
  simp [Container.write, unpassed, writePassed_nil, get?_ofFields_always, get?_ofFields_whenSome,
    get?_ofFields_nil]

theorem PodSpec.get?_write (spec : PodSpec) (unpassed : spec.passed = []) :
    spec.write.get? "containers" = some (Json.ofList Container.write spec.containers) ∧
      spec.write.get? "serviceAccountName" = spec.serviceAccountName.map .text := by
  simp [PodSpec.write, unpassed, writePassed_nil, get?_ofFields_always, get?_ofFields_whenSome,
    get?_ofFields_nil]

theorem VolumeMount.get?_write (mount : VolumeMount) (unpassed : mount.passed = []) :
    mount.write.get? "mountPath" = some (.text mount.mountPath) := by
  simp [VolumeMount.write, unpassed, writePassed_nil, get?_ofFields_always, get?_ofFields_nil]

namespace FullNode

variable {node first second : FullNode}

theorem filled_injective {α : Type} {items others : List α}
    (same : filled items = filled others) : items = others := by
  cases items <;> cases others <;> simp_all [filled]

/-- Two full nodes agree in all that their pods are made of, but for the name. -/
structure PodsAgree (first second : FullNode) : Prop where
  image : first.spec.image = second.spec.image
  imagePullPolicy : first.spec.imagePullPolicy = second.spec.imagePullPolicy
  args : first.spec.args = second.spec.args
  env : first.spec.env = second.spec.env
  resources : first.spec.resources = second.spec.resources
  serviceAccountName : first.spec.serviceAccountName = second.spec.serviceAccountName
  mountPath : first.mountPath = second.mountPath

theorem PodsAgree.container_eq (agree : first.PodsAgree second) :
    first.container = second.container := by
  simp only [container, agree.image, agree.imagePullPolicy, agree.args, agree.env,
    agree.resources, agree.mountPath]

theorem PodsAgree.podSpec_eq (agree : first.PodsAgree second) (sameName : first.name = second.name)
    (ordinal : Int) : first.podSpec ordinal = second.podSpec ordinal := by
  simp only [podSpec, podName, claimName, agree.container_eq, agree.serviceAccountName, sameName]

theorem writeTexts_injective : Function.Injective writeTexts := by
  intro texts others same
  exact List.map_injective_iff.2 (fun _ _ same => Json.text.inj same) (Json.array.inj same)

/-- What is written of a container shows what it is made of. -/
theorem eq_of_write_container (same : first.container.write = second.container.write) :
    first.spec.image = second.spec.image ∧
      first.spec.imagePullPolicy = second.spec.imagePullPolicy ∧
      first.spec.args = second.spec.args ∧ first.spec.env = second.spec.env ∧
      first.spec.resources = second.spec.resources ∧ first.mountPath = second.mountPath := by
  obtain ⟨image, policy, args, env, resources, mounts⟩ :=
    first.container.get?_write rfl
  obtain ⟨imageToo, policyToo, argsToo, envToo, resourcesToo, mountsToo⟩ :=
    second.container.get?_write rfl
  have textInjective : Function.Injective Json.text := fun _ _ same => Json.text.inj same
  have arrayInjective : Function.Injective Json.array := fun _ _ same => Json.array.inj same
  rw [same] at image policy args env resources mounts
  refine ⟨?_, ?_, ?_, ?_, resources.symm.trans resourcesToo, ?_⟩
  · exact textInjective (Option.some.inj (image.symm.trans imageToo))
  · exact Option.map_injective textInjective (policy.symm.trans policyToo)
  · exact filled_injective (Option.map_injective writeTexts_injective (args.symm.trans argsToo))
  · exact filled_injective (Option.map_injective arrayInjective (env.symm.trans envToo))
  · have sameMounts := arrayInjective (Option.some.inj (mounts.symm.trans mountsToo))
    have sameMount := congrArg (Json.get? · "mountPath") (List.cons.inj sameMounts).1
    rw [VolumeMount.get?_write _ rfl, VolumeMount.get?_write _ rfl] at sameMount
    exact textInjective (Option.some.inj sameMount)

theorem podsAgree_of_write_podSpec {ordinal : Int}
    (same : (first.podSpec ordinal).write = (second.podSpec ordinal).write) :
    first.PodsAgree second := by
  obtain ⟨containers, account⟩ := (first.podSpec ordinal).get?_write rfl
  obtain ⟨containersToo, accountToo⟩ := (second.podSpec ordinal).get?_write rfl
  rw [same] at containers account
  have sameContainers := Json.array.inj (Option.some.inj (containers.symm.trans containersToo))
  obtain ⟨image, policy, args, env, resources, mountPath⟩ :=
    eq_of_write_container (List.cons.inj sameContainers).1
  have sameAccount := Option.map_injective (fun _ _ same => Json.text.inj same)
    (account.symm.trans accountToo)
  exact ⟨image, policy, args, env, resources, sameAccount, mountPath⟩

/-! ## The text of a pod -/

theorem plain_writeTexts (texts : List String) : (writeTexts texts).Plain :=
  .ofList fun value _ => .text value

theorem plain_write_container (isRead : node.spec.IsRead) : node.container.write.Plain := by
  obtain ⟨env, resources⟩ := isRead.plain
  have mount : (VolumeMount.write ⟨dataVolumeName, node.mountPath, []⟩).Plain := by
    rw [VolumeMount.write, writePassed_nil]
    refine .ofFields ?_
    simp only [List.forall_mem_cons]
    exact ⟨plain_always (.text _), plain_always (.text _), fun _ none => by cases none⟩
  have filledEnv : ∀ items ∈ filled node.spec.env, (Json.array items).Plain := by
    intro items filled
    unfold FullNode.filled at filled
    split at filled
    · cases filled
    · obtain rfl := Option.some.inj filled
      exact .array env
  rw [Container.write, show node.container.passed = [] from rfl, writePassed_nil]
  refine .ofFields ?_
  simp only [List.forall_mem_cons]
  exact ⟨plain_always (.text _), plain_whenSome fun value _ => .text value,
    plain_whenSome fun value _ => .text value, plain_whenSome fun texts _ => plain_writeTexts texts,
    plain_whenSome filledEnv, plain_whenSome resources,
    plain_whenSome fun mounts same => .ofList (by
      obtain rfl := Option.some.inj same
      exact List.forall_mem_singleton.2 mount), fun _ none => by cases none⟩

theorem plain_write_podSpec (isRead : node.spec.IsRead) (ordinal : Int) :
    (node.podSpec ordinal).write.Plain := by
  have claim : ∀ name, (ClaimSource.write ⟨name, none⟩).Plain := by
    intro name
    refine .ofFields ?_
    simp only [List.forall_mem_cons]
    exact ⟨plain_always (.text _), plain_whenSome fun _ none => (Option.not_mem_none _ none).elim,
      fun _ none => by cases none⟩
  have volume : (Volume.write ⟨dataVolumeName, some ⟨node.claimName ordinal, none⟩, []⟩).Plain := by
    rw [Volume.write, writePassed_nil]
    refine .ofFields ?_
    simp only [List.forall_mem_cons]
    exact ⟨plain_always (.text _), plain_whenSome fun source same =>
      Option.some.inj same ▸ claim _, fun _ none => by cases none⟩
  rw [PodSpec.write, show (node.podSpec ordinal).passed = [] from rfl, writePassed_nil]
  refine .ofFields ?_
  simp only [List.forall_mem_cons]
  exact ⟨plain_always (.ofList (List.forall_mem_singleton.2 (plain_write_container isRead))),
    plain_whenSome fun value _ => .text value, plain_whenSome fun value _ => .text value,
    plain_whenSome fun value _ => .text value, plain_whenSome fun volumes same => .ofList (by
      obtain rfl := Option.some.inj same
      exact List.forall_mem_singleton.2 volume), fun _ none => by cases none⟩

theorem plain_writeTextMap (map : TextMap) : (writeTextMap map).Plain := by
  refine .object fun member among => ?_
  obtain ⟨entry, _, rfl⟩ := List.mem_map.1 among
  exact .text entry.2

theorem digestText_newPod (node : FullNode) (ordinal : Int) :
    (node.newPod ordinal).digestText = String.ofList
      ((node.podSpec ordinal).write.print ++ (writeTextMap (node.labelsFor podComponent)).print) :=
  rfl

/-- The text of which a pod carries the digest shows what the pod is made of. -/
theorem digestText_eq_iff (sameName : first.name = second.name) (isRead : first.spec.IsRead)
    (isReadToo : second.spec.IsRead) (ordinal : Int) :
    (first.newPod ordinal).digestText = (second.newPod ordinal).digestText ↔
      first.PodsAgree second := by
  have labels : first.labelsFor podComponent = second.labelsFor podComponent := by
    simp only [labelsFor, selectorLabels, sameName]
  rw [digestText_newPod, digestText_newPod, labels]
  constructor
  · intro same
    have plainLabels := plain_writeTextMap (second.labelsFor podComponent)
    have ends : Text.EndsDigits (writeTextMap (second.labelsFor podComponent)).print :=
      fun next head => Option.some.inj head ▸ rfl
    exact podsAgree_of_write_podSpec (print_append_print_injective (plain_write_podSpec isRead _)
      (plain_write_podSpec isReadToo _) plainLabels plainLabels ends ends
      (String.ofList_injective same)).1
  · intro agree
    rw [agree.podSpec_eq sameName]

/-- The texts behind the digests of the pods of two full nodes of one name are the same exactly if
the full nodes agree in all that their pods are made of.  Then a live pod of the one is up to date
for the other, and otherwise it is not, unless the digests of the two texts collide. -/
theorem needsUpdate_iff_not_podsAgree (sameName : first.name = second.name)
    (isRead : first.spec.IsRead) (isReadToo : second.spec.IsRead) (ordinal : Int) :
    ((first.newPod ordinal).digestText = (second.newPod ordinal).digestText ↔
        first.PodsAgree second) ∧
      ∀ live : Pod, live.digest? = (first.newPod ordinal).digest? →
        (first.PodsAgree second →
          MemberKind.pod.needsUpdate live (second.newPod ordinal) = false) ∧
        ((Digest.sha256Hex (first.newPod ordinal).digestText =
              Digest.sha256Hex (second.newPod ordinal).digestText →
            (first.newPod ordinal).digestText = (second.newPod ordinal).digestText) →
          ¬ first.PodsAgree second →
            MemberKind.pod.needsUpdate live (second.newPod ordinal) = true) := by
  have texts := digestText_eq_iff sameName isRead isReadToo ordinal
  have digests : ∀ node : FullNode, (node.newPod ordinal).digest? =
      some (Digest.sha256Hex (node.newPod ordinal).digestText) :=
    fun node => node.digest?_newPod ordinal
  refine ⟨texts, fun live carries => ⟨fun agree => ?_, fun apart differ => ?_⟩⟩
  · simp only [MemberKind.needsUpdate, carries, digests, texts.2 agree, bne_self_eq_false]
  · simp only [MemberKind.needsUpdate, carries, digests, bne_iff_ne, ne_eq, Option.some.injEq]
    exact fun collide => differ (texts.1 (apart collide))

/-- With more replicas, the pods of a full node stay as they are, and with another image they do
not. -/
theorem podsAgree_of_moreReplicas :
    let node := FullNode.sample 3 .empty
    let grown := { node with spec := { node.spec with replicas := 5 } }
    let renewed := { node with spec := { node.spec with image := "gaia:v19" } }
    node.spec.IsRead ∧ grown.spec.IsRead ∧ renewed.spec.IsRead ∧
      MemberKind.pod.needsUpdate (node.newPod 0) (grown.newPod 0) = false ∧
      (node.newPod 0).digestText ≠ (renewed.newPod 0).digestText := by
  intro node grown renewed
  have isRead : node.spec.IsRead := ⟨node.spec.write, by cbv⟩
  have grownIsRead : grown.spec.IsRead := ⟨grown.spec.write, by cbv⟩
  have renewedIsRead : renewed.spec.IsRead := ⟨renewed.spec.write, by cbv⟩
  have sameName : node.name = grown.name ∧ node.name = renewed.name := ⟨rfl, rfl⟩
  have grows := needsUpdate_iff_not_podsAgree sameName.1 isRead grownIsRead 0
  have renews := needsUpdate_iff_not_podsAgree sameName.2 isRead renewedIsRead 0
  refine ⟨isRead, grownIsRead, renewedIsRead, (grows.2 _ rfl).1 ⟨rfl, rfl, rfl, rfl, rfl, rfl, rfl⟩,
    fun same => ?_⟩
  exact absurd (renews.1.1 same).image (by decide)

end FullNode

end NodeFleet.Resource
