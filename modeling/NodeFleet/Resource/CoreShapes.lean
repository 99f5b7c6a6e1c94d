import NodeFleet.Resource.Meta

/-!
# Shapes of core objects

The parts of pods and volume claims, in the core API of release 1.31, that the
operator passes on without looking at them.
-/

namespace NodeFleet.Resource.CoreShapes

open Shape

def texts (keys : List String) : List (String × Bool × Shape) := keys.map fun key => may key .text

def flags (keys : List String) : List (String × Bool × Shape) := keys.map fun key => may key .bool

def textList : Shape := .list .text

def textMap : Shape := .map .text

def objectName : Shape := .record [needs "name" .text]

def namedOption : Shape := .record [needs "name" .text, may "optional" .bool]

def typedReference : Shape :=
  .record [may "apiGroup" .text, needs "kind" .text, needs "name" .text]

def requirements : Shape :=
  .list <| .record [needs "key" .text, needs "operator" .text, may "values" textList]

def selector : Shape := .record [may "matchExpressions" requirements, may "matchLabels" textMap]

/-! ## Containers -/

def keyOfObject : Shape :=
  .record [needs "key" .text, needs "name" .text, may "optional" .bool]

def fieldReference : Shape := .record [may "apiVersion" .text, needs "fieldPath" .text]

def resourceReference : Shape :=
  .record [may "containerName" .text, may "divisor" .text, needs "resource" .text]

def variableSource : Shape :=
  .record [
    may "configMapKeyRef" keyOfObject, may "fieldRef" fieldReference,
    may "resourceFieldRef" resourceReference, may "secretKeyRef" keyOfObject]

def environmentVariable : Shape :=
  .record [needs "name" .text, may "value" .text, may "valueFrom" variableSource]

def resources : Shape :=
  .record [
    may "claims" (.list (.record [needs "name" .text, may "request" .text])),
    may "limits" textMap, may "requests" textMap]

def volumeMount : Shape :=
  .record [
    needs "mountPath" .text, may "mountPropagation" .text, needs "name" .text,
    may "readOnly" .bool, may "recursiveReadOnly" .text, may "subPath" .text,
    may "subPathExpr" .text]

def variableBundle : Shape :=
  .record [may "configMapRef" namedOption, may "prefix" .text, may "secretRef" namedOption]

def command : Shape := .record [may "command" textList]

def webRequest : Shape :=
  .record [
    may "host" .text,
    may "httpHeaders" (.list (.record [needs "name" .text, needs "value" .text])),
    may "path" .text, needs "port" .intOrText, may "scheme" .text]

def socket : Shape := .record [may "host" .text, needs "port" .intOrText]

def handler : Shape :=
  .record [
    may "exec" command, may "httpGet" webRequest,
    may "sleep" (.record [needs "seconds" .int64]), may "tcpSocket" socket]

def probe : Shape :=
  .record [
    may "exec" command, may "failureThreshold" .int32,
    may "grpc" (.record [needs "port" .int32, may "service" .text]),
    may "httpGet" webRequest, may "initialDelaySeconds" .int32, may "periodSeconds" .int32,
    may "successThreshold" .int32, may "tcpSocket" socket,
    may "terminationGracePeriodSeconds" .int64, may "timeoutSeconds" .int32]

def profile : Shape := .record [may "localhostProfile" .text, needs "type" .text]

def seLinux : Shape := .record (texts ["level", "role", "type", "user"])

def windows : Shape :=
  .record (may "hostProcess" .bool ::
    texts ["gmsaCredentialSpec", "gmsaCredentialSpecName", "runAsUserName"])

def containerSecurity : Shape :=
  .record (
    flags ["allowPrivilegeEscalation", "privileged", "readOnlyRootFilesystem", "runAsNonRoot"] ++
    [may "appArmorProfile" profile,
      may "capabilities" (.record [may "add" textList, may "drop" textList]),
      may "procMount" .text, may "runAsGroup" .int64, may "runAsUser" .int64,
      may "seLinuxOptions" seLinux, may "seccompProfile" profile, may "windowsOptions" windows])

def containerPort : Shape :=
  .record [
    needs "containerPort" .int32, may "hostIP" .text, may "hostPort" .int32, may "name" .text,
    may "protocol" .text]

/-- The members of a container besides its name, image, pull policy, arguments,
variables, resources and volume mounts. -/
def containerRest : List (String × Bool × Shape) :=
  flags ["stdin", "stdinOnce", "tty"] ++
  texts ["restartPolicy", "terminationMessagePath", "terminationMessagePolicy", "workingDir"] ++
  [may "command" textList, may "envFrom" (.list variableBundle),
    may "lifecycle" (.record [may "postStart" handler, may "preStop" handler]),
    may "livenessProbe" probe, may "ports" (.list containerPort), may "readinessProbe" probe,
    may "resizePolicy"
      (.list (.record [needs "resourceName" .text, needs "restartPolicy" .text])),
    may "securityContext" containerSecurity, may "startupProbe" probe,
    may "volumeDevices" (.list (.record [needs "devicePath" .text, needs "name" .text]))]

/-- The members of a container that the operator reads or writes. -/
def containerMain : List (String × Bool × Shape) :=
  [may "args" textList, may "env" (.list environmentVariable), may "image" .text,
    may "imagePullPolicy" .text, needs "name" .text, may "resources" resources,
    may "volumeMounts" (.list volumeMount)]

def container : Shape := .record (containerMain ++ containerRest)

def ephemeralContainer : Shape :=
  .record (may "targetContainerName" .text :: containerMain ++ containerRest)

/-! ## Volumes -/

def keyItems : Shape :=
  .list (.record [needs "key" .text, may "mode" .int32, needs "path" .text])

def fieldItems : Shape :=
  .list (.record [
    may "fieldRef" fieldReference, may "mode" .int32, needs "path" .text,
    may "resourceFieldRef" resourceReference])

def claimSpecRest : List (String × Bool × Shape) :=
  texts ["volumeAttributesClassName", "volumeMode", "volumeName"] ++
  [may "selector" selector,
    may "dataSourceRef" (.record [
      may "apiGroup" .text, needs "kind" .text, needs "name" .text, may "namespace" .text])]

def claimSpec : Shape :=
  .record (
    [may "accessModes" textList, may "dataSource" typedReference,
      may "resources" (.record [may "limits" textMap, may "requests" textMap]),
      may "storageClassName" .text] ++ claimSpecRest)

def ownerReference : Shape :=
  .record [
    needs "apiVersion" .text, may "blockOwnerDeletion" .bool, may "controller" .bool,
    needs "kind" .text, needs "name" .text, needs "uid" .text]

def metadata : Shape :=
  .record (
    texts ["generateName", "name", "namespace", "resourceVersion", "selfLink", "uid"] ++
    [may "annotations" textMap, may "creationTimestamp" .time,
      may "deletionGracePeriodSeconds" .int64, may "deletionTimestamp" .time,
      may "finalizers" textList, may "generation" .int64, may "labels" textMap,
      may "managedFields" ObjectMeta.managedFieldsShape,
      may "ownerReferences" (.list ownerReference)])

def projection : Shape :=
  .record [
    may "clusterTrustBundle" (.record [
      may "labelSelector" selector, may "name" .text, may "optional" .bool, needs "path" .text,
      may "signerName" .text]),
    may "configMap" (.record [may "items" keyItems, needs "name" .text, may "optional" .bool]),
    may "downwardAPI" (.record [may "items" fieldItems]),
    may "secret" (.record [may "items" keyItems, needs "name" .text, may "optional" .bool]),
    may "serviceAccountToken" (.record [
      may "audience" .text, may "expirationSeconds" .int64, needs "path" .text])]

/-- The sources of a volume besides a volume claim. -/
def volumeSources : List (String × Bool × Shape) :=
  [ may "awsElasticBlockStore" (.record [
      may "fsType" .text, may "partition" .int32, may "readOnly" .bool, needs "volumeID" .text]),
    may "azureDisk" (.record [
      may "cachingMode" .text, needs "diskName" .text, needs "diskURI" .text, may "fsType" .text,
      may "kind" .text, may "readOnly" .bool]),
    may "azureFile" (.record [
      may "readOnly" .bool, needs "secretName" .text, needs "shareName" .text]),
    may "cephfs" (.record [
      needs "monitors" textList, may "path" .text, may "readOnly" .bool, may "secretFile" .text,
      may "secretRef" objectName, may "user" .text]),
    may "cinder" (.record [
      may "fsType" .text, may "readOnly" .bool, may "secretRef" objectName,
      needs "volumeID" .text]),
    may "configMap" (.record [
      may "defaultMode" .int32, may "items" keyItems, needs "name" .text,
      may "optional" .bool]),
    may "csi" (.record [
      needs "driver" .text, may "fsType" .text, may "nodePublishSecretRef" objectName,
      may "readOnly" .bool, may "volumeAttributes" textMap]),
    may "downwardAPI" (.record [may "defaultMode" .int32, may "items" fieldItems]),
    may "emptyDir" (.record [may "medium" .text, may "sizeLimit" .text]),
    may "ephemeral" (.record [
      may "volumeClaimTemplate" (.record [may "metadata" metadata, needs "spec" claimSpec])]),
    may "fc" (.record [
      may "fsType" .text, may "lun" .int32, may "readOnly" .bool, may "targetWWNs" textList,
      may "wwids" textList]),
    may "flexVolume" (.record [
      needs "driver" .text, may "fsType" .text, may "options" textMap, may "readOnly" .bool,
      may "secretRef" objectName]),
    may "flocker" (.record (texts ["datasetName", "datasetUUID"])),
    may "gcePersistentDisk" (.record [
      may "fsType" .text, may "partition" .int32, needs "pdName" .text, may "readOnly" .bool]),
    may "gitRepo" (.record [
      may "directory" .text, needs "repository" .text, may "revision" .text]),
    may "glusterfs" (.record [
      needs "endpoints" .text, needs "path" .text, may "readOnly" .bool]),
    may "hostPath" (.record [needs "path" .text, may "type" .text]),
    may "image" (.record (texts ["pullPolicy", "reference"])),
    may "iscsi" (.record [
      may "chapAuthDiscovery" .bool, may "chapAuthSession" .bool, may "fsType" .text,
      may "initiatorName" .text, needs "iqn" .text, may "iscsiInterface" .text,
      needs "lun" .int32, may "portals" textList, may "readOnly" .bool,
      may "secretRef" objectName, needs "targetPortal" .text]),
    may "nfs" (.record [needs "path" .text, may "readOnly" .bool, needs "server" .text]),
    may "photonPersistentDisk" (.record [may "fsType" .text, needs "pdID" .text]),
    may "portworxVolume" (.record [
      may "fsType" .text, may "readOnly" .bool, needs "volumeID" .text]),
    may "projected" (.record [may "defaultMode" .int32, may "sources" (.list projection)]),
    may "quobyte" (.record [
      may "group" .text, may "readOnly" .bool, needs "registry" .text, may "tenant" .text,
      may "user" .text, needs "volume" .text]),
    may "rbd" (.record [
      may "fsType" .text, needs "image" .text, may "keyring" .text, needs "monitors" textList,
      may "pool" .text, may "readOnly" .bool, may "secretRef" objectName, may "user" .text]),
    may "scaleIO" (.record [
      may "fsType" .text, needs "gateway" .text, may "protectionDomain" .text,
      may "readOnly" .bool, needs "secretRef" objectName, may "sslEnabled" .bool,
      may "storageMode" .text, may "storagePool" .text, needs "system" .text,
      may "volumeName" .text]),
    may "secret" (.record [
      may "defaultMode" .int32, may "items" keyItems, may "optional" .bool,
      may "secretName" .text]),
    may "storageos" (.record [
      may "fsType" .text, may "readOnly" .bool, may "secretRef" objectName,
      may "volumeName" .text, may "volumeNamespace" .text]),
    may "vsphereVolume" (.record [
      may "fsType" .text, may "storagePolicyID" .text, may "storagePolicyName" .text,
      needs "volumePath" .text]) ]

/-! ## Pods -/

def nodeTerm : Shape :=
  .record [may "matchExpressions" requirements, may "matchFields" requirements]

def podTerm : Shape :=
  .record [
    may "labelSelector" selector, may "matchLabelKeys" textList,
    may "mismatchLabelKeys" textList, may "namespaceSelector" selector,
    may "namespaces" textList, needs "topologyKey" .text]

def podAffinity : Shape :=
  .record [
    may "preferredDuringSchedulingIgnoredDuringExecution"
      (.list (.record [needs "podAffinityTerm" podTerm, needs "weight" .int32])),
    may "requiredDuringSchedulingIgnoredDuringExecution" (.list podTerm)]

def affinity : Shape :=
  .record [
    may "nodeAffinity" (.record [
      may "preferredDuringSchedulingIgnoredDuringExecution"
        (.list (.record [needs "preference" nodeTerm, needs "weight" .int32])),
      may "requiredDuringSchedulingIgnoredDuringExecution"
        (.record [needs "nodeSelectorTerms" (.list nodeTerm)])]),
    may "podAffinity" podAffinity, may "podAntiAffinity" podAffinity]

def podSecurity : Shape :=
  .record [
    may "appArmorProfile" profile, may "fsGroup" .int64, may "fsGroupChangePolicy" .text,
    may "runAsGroup" .int64, may "runAsNonRoot" .bool, may "runAsUser" .int64,
    may "seLinuxOptions" seLinux, may "seccompProfile" profile,
    may "supplementalGroups" (.list .int64), may "supplementalGroupsPolicy" .text,
    may "sysctls" (.list (.record [needs "name" .text, needs "value" .text])),
    may "windowsOptions" windows]

def spreadConstraint : Shape :=
  .record [
    may "labelSelector" selector, may "matchLabelKeys" textList, needs "maxSkew" .int32,
    may "minDomains" .int32, may "nodeAffinityPolicy" .text, may "nodeTaintsPolicy" .text,
    needs "topologyKey" .text, needs "whenUnsatisfiable" .text]

/-- The members of a pod specification besides its containers, host name,
restart policy, service account name and volumes. -/
def podSpecRest : List (String × Bool × Shape) :=
  flags ["automountServiceAccountToken", "enableServiceLinks", "hostIPC", "hostNetwork",
    "hostPID", "hostUsers", "setHostnameAsFQDN", "shareProcessNamespace"] ++
  texts ["dnsPolicy", "nodeName", "preemptionPolicy", "priorityClassName", "runtimeClassName",
    "schedulerName", "serviceAccount", "subdomain"] ++
  [may "activeDeadlineSeconds" .int64, may "affinity" affinity,
    may "dnsConfig" (.record [
      may "nameservers" textList,
      may "options" (.list (.record (texts ["name", "value"]))), may "searches" textList]),
    may "ephemeralContainers" (.list ephemeralContainer),
    may "hostAliases" (.list (.record [may "hostnames" textList, needs "ip" .text])),
    may "imagePullSecrets" (.list objectName), may "initContainers" (.list container),
    may "nodeSelector" textMap, may "os" objectName, may "overhead" textMap,
    may "priority" .int32,
    may "readinessGates" (.list (.record [needs "conditionType" .text])),
    may "resourceClaims" (.list (.record [
      needs "name" .text, may "resourceClaimName" .text,
      may "resourceClaimTemplateName" .text])),
    may "schedulingGates" (.list objectName), may "securityContext" podSecurity,
    may "terminationGracePeriodSeconds" .int64,
    may "tolerations" (.list (.record
      (may "tolerationSeconds" .int64 :: texts ["effect", "key", "operator", "value"]))),
    may "topologySpreadConstraints" (.list spreadConstraint)]

def containerState : Shape :=
  .record [
    may "running" (.record [may "startedAt" .time]),
    may "terminated" (.record [
      may "containerID" .text, needs "exitCode" .int32, may "finishedAt" .time,
      may "message" .text, may "reason" .text, may "signal" .int32, may "startedAt" .time]),
    may "waiting" (.record (texts ["message", "reason"]))]

def containerStatus : Shape :=
  .record [
    may "allocatedResources" textMap,
    may "allocatedResourcesStatus" (.list (.record [
      needs "name" .text,
      may "resources" (.list (.record [may "health" .text, needs "resourceID" .text]))])),
    may "containerID" .text, needs "image" .text, needs "imageID" .text,
    may "lastState" containerState, needs "name" .text, needs "ready" .bool,
    may "resources" resources, needs "restartCount" .int32, may "started" .bool,
    may "state" containerState,
    may "user" (.record [may "linux" (.record [
      needs "gid" .int64, may "supplementalGroups" (.list .int64), needs "uid" .int64])]),
    may "volumeMounts" (.list (.record [
      needs "mountPath" .text, needs "name" .text, may "readOnly" .bool,
      may "recursiveReadOnly" .text]))]

/-- The members of a pod condition besides its type, status and transition
time. -/
def podConditionRest : List (String × Bool × Shape) :=
  [may "lastProbeTime" .time, may "message" .text, may "reason" .text]

/-- The members of a pod status besides its conditions. -/
def podStatusRest : List (String × Bool × Shape) :=
  texts ["hostIP", "message", "nominatedNodeName", "phase", "podIP", "qosClass", "reason",
    "resize"] ++
  [may "containerStatuses" (.list containerStatus),
    may "ephemeralContainerStatuses" (.list containerStatus),
    may "hostIPs" (.list (.record [needs "ip" .text])),
    may "initContainerStatuses" (.list containerStatus),
    may "podIPs" (.list (.record [needs "ip" .text])),
    may "resourceClaimStatuses"
      (.list (.record [needs "name" .text, may "resourceClaimName" .text])),
    may "startTime" .time]

/-- The members of a volume claim status besides its phase. -/
def claimStatusRest : List (String × Bool × Shape) :=
  [may "accessModes" textList, may "allocatedResourceStatuses" textMap,
    may "allocatedResources" textMap, may "capacity" textMap,
    may "conditions" (.list (.record [
      may "lastProbeTime" .time, may "lastTransitionTime" .time, may "message" .text,
      may "reason" .text, needs "status" .text, needs "type" .text])),
    may "currentVolumeAttributesClassName" .text,
    may "modifyVolumeStatus" (.record [
      needs "status" .text, may "targetVolumeAttributesClassName" .text])]

end NodeFleet.Resource.CoreShapes
