import Recast.Hierarchy.Basic
/-!
# Platform classes — the core classes that nearly every program refers to

A small part of `java.lang` and `java.util`, enough to answer the common questions; the classes of
the program itself are registered on top.
-/
namespace Recast

namespace Platform

/-- A use of a class with its own type variables as arguments. -/
def parameterized (name : String) (vars : List String) : ClassType :=
  ⟨name, some (vars.map fun v => .exact (.ofVar v)), 0⟩

def comparableTo (name : String) : ClassType :=
  ⟨"java/lang/Comparable", some [.exact (.ofClass name)], 0⟩

def object : ClassDecl :=
  { ClassDecl.ofClass ClassType.rootName with superclass := none }.withMethods
    [("<init>", "()V"), ("equals", "(Ljava/lang/Object;)Z"), ("hashCode", "()I"),
     ("toString", "()Ljava/lang/String;"), ("getClass", "()Ljava/lang/Class;")]

def charSequence : ClassDecl :=
  (ClassDecl.ofInterface "java/lang/CharSequence").withMethods [("length", "()I"), ("charAt", "(I)C")]

def comparable : ClassDecl :=
  { ClassDecl.ofInterface "java/lang/Comparable" with parameters := ["T"] }.withMethods
    [("compareTo", "(Ljava/lang/Object;)I")]

def string : ClassDecl :=
  { ClassDecl.ofClass ClassType.stringName with
    interfaces := [.ofName "java/lang/CharSequence", comparableTo ClassType.stringName] }.withMethods
    [("<init>", "()V"), ("<init>", "(Ljava/lang/String;)V"), ("<init>", "([C)V"), ("<init>", "([B)V"),
     ("valueOf", "(Ljava/lang/Object;)Ljava/lang/String;"), ("valueOf", "([C)Ljava/lang/String;"),
     ("valueOf", "(I)Ljava/lang/String;"), ("valueOf", "(J)Ljava/lang/String;"),
     ("valueOf", "(Z)Ljava/lang/String;"), ("equals", "(Ljava/lang/Object;)Z"), ("indexOf", "(I)I"),
     ("indexOf", "(Ljava/lang/String;)I"), ("compareTo", "(Ljava/lang/String;)I")]

def number : ClassDecl :=
  (ClassDecl.ofClass "java/lang/Number").withMethods
    [("<init>", "()V"), ("intValue", "()I"), ("longValue", "()J")]

def integer : ClassDecl :=
  { ClassDecl.ofClass "java/lang/Integer" with
    superclass := some (.ofName "java/lang/Number")
    interfaces := [comparableTo "java/lang/Integer"] }.withMethods
    [("<init>", "(I)V"), ("<init>", "(Ljava/lang/String;)V"), ("valueOf", "(I)Ljava/lang/Integer;"),
     ("valueOf", "(Ljava/lang/String;)Ljava/lang/Integer;")]

def long : ClassDecl :=
  { ClassDecl.ofClass "java/lang/Long" with
    superclass := some (.ofName "java/lang/Number")
    interfaces := [comparableTo "java/lang/Long"] }.withMethods
    [("<init>", "(J)V"), ("<init>", "(Ljava/lang/String;)V"), ("valueOf", "(J)Ljava/lang/Long;"),
     ("valueOf", "(Ljava/lang/String;)Ljava/lang/Long;")]

def iterable : ClassDecl :=
  { ClassDecl.ofInterface "java/lang/Iterable" with parameters := ["T"] }.withMethods
    [("iterator", "()Ljava/util/Iterator;")]

def collection : ClassDecl :=
  { ClassDecl.ofInterface "java/util/Collection" with
    parameters := ["E"]
    interfaces := [parameterized "java/lang/Iterable" ["E"]] }.withMethods
    [("add", "(Ljava/lang/Object;)Z"), ("remove", "(Ljava/lang/Object;)Z"),
     ("contains", "(Ljava/lang/Object;)Z"), ("addAll", "(Ljava/util/Collection;)Z"), ("size", "()I")]

def list : ClassDecl :=
  { ClassDecl.ofInterface "java/util/List" with
    parameters := ["E"]
    interfaces := [parameterized "java/util/Collection" ["E"]] }.withMethods
    [("add", "(ILjava/lang/Object;)V"), ("get", "(I)Ljava/lang/Object;"),
     ("set", "(ILjava/lang/Object;)Ljava/lang/Object;"), ("remove", "(I)Ljava/lang/Object;"),
     ("addAll", "(ILjava/util/Collection;)Z")]

def arrayList : ClassDecl :=
  { ClassDecl.ofClass "java/util/ArrayList" with
    parameters := ["E"]
    interfaces := [parameterized "java/util/List" ["E"]] }.withMethods
    [("<init>", "()V"), ("<init>", "(I)V"), ("<init>", "(Ljava/util/Collection;)V")]

def map : ClassDecl :=
  { ClassDecl.ofInterface "java/util/Map" with parameters := ["K", "V"] }.withMethods
    [("get", "(Ljava/lang/Object;)Ljava/lang/Object;"),
     ("put", "(Ljava/lang/Object;Ljava/lang/Object;)Ljava/lang/Object;"),
     ("remove", "(Ljava/lang/Object;)Ljava/lang/Object;"), ("containsKey", "(Ljava/lang/Object;)Z")]

def hashMap : ClassDecl :=
  { ClassDecl.ofClass "java/util/HashMap" with
    parameters := ["K", "V"]
    interfaces := [parameterized "java/util/Map" ["K", "V"]] }.withMethods
    [("<init>", "()V"), ("<init>", "(I)V"), ("<init>", "(Ljava/util/Map;)V")]

/-- The four constructors every throwable class has. -/
def throwableConstructors : List (String × String) :=
  [("<init>", "()V"), ("<init>", "(Ljava/lang/String;)V"), ("<init>", "(Ljava/lang/Throwable;)V"),
   ("<init>", "(Ljava/lang/String;Ljava/lang/Throwable;)V")]

def throwable : ClassDecl :=
  (ClassDecl.ofClass "java/lang/Throwable").withMethods
    (throwableConstructors ++ [("getMessage", "()Ljava/lang/String;")])

def exception : ClassDecl :=
  { ClassDecl.ofClass "java/lang/Exception" with
    superclass := some (.ofName "java/lang/Throwable") }.withMethods throwableConstructors

def runtimeException : ClassDecl :=
  { ClassDecl.ofClass "java/lang/RuntimeException" with
    superclass := some (.ofName "java/lang/Exception") }.withMethods throwableConstructors

def classes : List ClassDecl :=
  [object, charSequence, comparable, string, number, integer, long, iterable, collection, list,
   arrayList, map, hashMap, throwable, exception, runtimeException]

end Platform

/-- A hierarchy that holds the platform classes. -/
def Hierarchy.platform : Hierarchy := Platform.classes.foldl Hierarchy.put .empty

end Recast
